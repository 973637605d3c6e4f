import RoomRelay.Hub.Registry

/-!
# What the registry answers after each change

The registry is looked at through four questions: which session stands under an identifier, which
one is current for an identity, who is a member of a room, and which rooms a session has joined.
For each operation this file says how the answers change. Nothing here depends on the four tables
agreeing with each other.

## Main definitions

* `Table.Holds`, `Table.NoEmpty` — tables of sets
* `Registry.IsMember`, `Registry.HasJoined` — the two sides of membership
* `Registry.Removed` — one registry is another one with a session taken out

## Main results

* `Registry.removed_of_remove` — what taking a session out does
* `Registry.insert_cases` — registering a session evicts its rival or nobody
* `Registry.isMember_join`, `Registry.isMember_leave` — who is a member afterwards
-/

namespace RoomRelay

/-! ### Tables of sets -/

section Sets

variable {κ α : Type} {key other : κ} {a : α}

theorem FinSet.isEmpty_iff {s : FinSet α} : s.isEmpty = true ↔ ∀ a, a ∉ s := by
  rw [FinSet.isEmpty, List.isEmpty_iff, List.eq_nil_iff_forall_not_mem]
  exact Iff.rfl

variable [DecidableEq κ] {t : Table κ (FinSet α)}

/-- The set under a key has an element. -/
def Table.Holds (t : Table κ (FinSet α)) (key : κ) (a : α) : Prop :=
  ∃ s, t.get? key = some s ∧ a ∈ s

/-- No key has an empty set. -/
def Table.NoEmpty (t : Table κ (FinSet α)) : Prop :=
  ∀ key s, t.get? key = some s → ∃ a, a ∈ s

namespace Table

theorem holds_iff_mem_getD : t.Holds key a ↔ a ∈ (t.get? key).getD {} := by
  unfold Holds
  cases t.get? key with
  | none => simp
  | some s => simp

@[simp] theorem not_holds_empty : ¬ ({} : Table κ (FinSet α)).Holds key a := by
  simp [Holds]

/-- A table answers with what it holds, since no key stands in it twice. -/
theorem get?_eq_some_iff {ν : Type} {t : Table κ ν} {v : ν} :
    t.get? key = some v ↔ (key, v) ∈ t.entries := by
  obtain ⟨entries, hnodup⟩ := t
  unfold get?
  induction entries with
  | nil => simp [find]
  | cons e rest ih =>
    obtain ⟨k, w⟩ := e
    rw [List.map_cons, List.nodup_cons] at hnodup
    rw [find, List.mem_cons]
    split
    · rename_i hk
      subst hk
      -- What is found first is all there is, since the key does not come again.
      constructor
      · intro hv
        rw [Option.some_inj.mp hv]
        exact Or.inl rfl
      · rintro (hv | hv)
        · rw [(Prod.mk.inj hv).2]
        · exact absurd (List.mem_map_of_mem hv) hnodup.1
    · rename_i hk
      rw [ih hnodup.2]
      simp [Ne.symm hk]

theorem noEmpty_empty : ({} : Table κ (FinSet α)).NoEmpty := by
  intro key s h
  simp at h

theorem Holds.contains (h : t.Holds key a) : t.contains key = true := by
  obtain ⟨s, hs, -⟩ := h
  simp [Table.contains, hs]

/-- Without empty sets, a key is there exactly if something stands under it. -/
theorem NoEmpty.contains_iff (h : t.NoEmpty) : t.contains key = true ↔ ∃ a, t.Holds key a := by
  constructor
  · intro hc
    obtain ⟨s, hs⟩ := Option.isSome_iff_exists.mp hc
    obtain ⟨a, ha⟩ := h key s hs
    exact ⟨a, s, hs, ha⟩
  · rintro ⟨a, ha⟩
    exact ha.contains

theorem holds_insert {s : FinSet α} :
    (t.insert key s).Holds other a ↔ if key = other then a ∈ s else t.Holds other a := by
  unfold Holds
  rw [get?_insert]
  split <;> simp

theorem holds_erase : (t.erase key).Holds other a ↔ key ≠ other ∧ t.Holds other a := by
  unfold Holds
  rw [get?_erase]
  split
  · rename_i h
    simp [h]
  · rename_i h
    simp [h]

theorem NoEmpty.insert {s : FinSet α} (h : t.NoEmpty) (ha : a ∈ s) : (t.insert key s).NoEmpty := by
  intro k s' hk
  rw [get?_insert] at hk
  split at hk
  · obtain rfl := Option.some_inj.mp hk
    exact ⟨a, ha⟩
  · exact h k s' hk

theorem NoEmpty.erase (h : t.NoEmpty) : (t.erase key).NoEmpty := by
  intro k s' hk
  rw [get?_erase] at hk
  split at hk
  · exact absurd hk (by simp)
  · exact h k s' hk

/-- Adding an element under a key adds just that. -/
theorem holds_insert_insert [DecidableEq α] {b : α} :
    (t.insert key (((t.get? key).getD {}).insert b)).Holds other a ↔
      t.Holds other a ∨ (other = key ∧ a = b) := by
  rw [holds_insert]
  split
  · rename_i hk
    subst hk
    rw [FinSet.mem_insert, holds_iff_mem_getD]
    simp [or_comm]
  · rename_i hk
    simp [Ne.symm hk]

end Table

namespace Registry

/-- Putting a set into a table changes what stands under its key, also when the set is empty. -/
theorem holds_store {s : FinSet α} :
    (store t key s).Holds other a ↔ if key = other then a ∈ s else t.Holds other a := by
  unfold store
  split
  · -- An empty set is not kept: the key goes instead.
    rename_i hs
    rw [Table.holds_erase]
    split
    · rename_i hk
      simp [hk, FinSet.isEmpty_iff.mp hs a]
    · rename_i hk
      simp [hk]
  · exact Table.holds_insert

theorem noEmpty_store {s : FinSet α} (h : t.NoEmpty) : (store t key s).NoEmpty := by
  unfold store
  split
  · exact h.erase
  · rename_i hs
    rw [FinSet.isEmpty_iff, Classical.not_forall] at hs
    obtain ⟨a, ha⟩ := hs
    exact h.insert (Classical.not_not.mp ha)

end Registry

end Sets

namespace Registry

variable {r r' : Registry} {id other : SessionId} {roomId room userId : String} {session : Session}

/-- The table of rooms has a session as a member of a room. -/
def IsMember (r : Registry) (id : SessionId) (roomId : String) : Prop := r.rooms.Holds roomId id

/-- The reverse table has a room among those of a session. -/
def HasJoined (r : Registry) (id : SessionId) (roomId : String) : Prop := r.joined.Holds id roomId

theorem mem_memberIds : id ∈ r.memberIds roomId ↔ r.IsMember id roomId :=
  Table.holds_iff_mem_getD.symm

theorem mem_roomsOf : roomId ∈ r.roomsOf id ↔ r.HasJoined id roomId :=
  Table.holds_iff_mem_getD.symm

theorem contains_iff : r.contains id = true ↔ ∃ session, r.sessions.get? id = some session :=
  Option.isSome_iff_exists

/-! ### Taking a member out of rooms -/

@[simp] theorem byUser_detach : (r.detach id roomId).byUser = r.byUser := by
  unfold detach
  split <;> rfl

@[simp] theorem sessions_detach : (r.detach id roomId).sessions = r.sessions := by
  unfold detach
  split <;> rfl

@[simp] theorem joined_detach : (r.detach id roomId).joined = r.joined := by
  unfold detach
  split <;> rfl

@[simp] theorem closed_detach : (r.detach id roomId).closed = r.closed := by
  unfold detach
  split <;> rfl

theorem isMember_detach :
    (r.detach id roomId).IsMember other room ↔
      r.IsMember other room ∧ ¬ (other = id ∧ room = roomId) := by
  unfold detach IsMember
  split
  · rename_i members hm
    rw [holds_store]
    split
    · rename_i hk
      subst hk
      simp [Table.Holds, hm, and_comm]
    · rename_i hk
      simp [Ne.symm hk]
  · -- A room that is not there has no members to begin with.
    rename_i hm
    constructor
    · intro h
      refine ⟨h, ?_⟩
      rintro ⟨-, rfl⟩
      obtain ⟨s, hs, -⟩ := h
      rw [hm] at hs
      exact absurd hs (by simp)
    · exact And.left

theorem noEmpty_rooms_detach (h : r.rooms.NoEmpty) : (r.detach id roomId).rooms.NoEmpty := by
  unfold detach
  split
  · exact noEmpty_store h
  · exact h

/-- What taking a member out of one room keeps, taking it out of many keeps. -/
theorem foldl_detach_eq {β : Type} (view : Registry → β)
    (h : ∀ (r : Registry) room, view (r.detach id room) = view r) (rooms : List String) :
    view (rooms.foldl (·.detach id) r) = view r := by
  induction rooms generalizing r with
  | nil => rfl
  | cons room rooms ih => rw [List.foldl_cons, ih, h]

@[simp] theorem byUser_foldl_detach {rooms : List String} :
    (rooms.foldl (·.detach id) r).byUser = r.byUser :=
  foldl_detach_eq byUser (fun _ _ => byUser_detach) rooms

@[simp] theorem sessions_foldl_detach {rooms : List String} :
    (rooms.foldl (·.detach id) r).sessions = r.sessions :=
  foldl_detach_eq sessions (fun _ _ => sessions_detach) rooms

@[simp] theorem joined_foldl_detach {rooms : List String} :
    (rooms.foldl (·.detach id) r).joined = r.joined :=
  foldl_detach_eq joined (fun _ _ => joined_detach) rooms

@[simp] theorem closed_foldl_detach {rooms : List String} :
    (rooms.foldl (·.detach id) r).closed = r.closed :=
  foldl_detach_eq closed (fun _ _ => closed_detach) rooms

theorem isMember_foldl_detach {rooms : List String} :
    (rooms.foldl (·.detach id) r).IsMember other room ↔
      r.IsMember other room ∧ ¬ (other = id ∧ room ∈ rooms) := by
  induction rooms generalizing r with
  | nil => simp
  | cons first rooms ih =>
    rw [List.foldl_cons, ih, isMember_detach, List.mem_cons, and_assoc, ← not_or, ← and_or_left]

theorem noEmpty_rooms_foldl_detach {rooms : List String} (h : r.rooms.NoEmpty) :
    (rooms.foldl (·.detach id) r).rooms.NoEmpty := by
  induction rooms generalizing r with
  | nil => exact h
  | cons room rooms ih => exact ih (noEmpty_rooms_detach h)

/-! ### Taking a session out -/

/-- The second registry is the first one with a session taken out of all four tables. -/
structure Removed (r : Registry) (id : SessionId) (session : Session) (r' : Registry) : Prop where
  registered : r.sessions.get? id = some session
  get?_sessions : ∀ other,
    r'.sessions.get? other = if id = other then none else r.sessions.get? other
  current_eq : ∀ userId, r'.current userId =
    if userId = session.userId ∧ r.current userId = some session.id then none
    else r.current userId
  isMember_iff : ∀ other room,
    r'.IsMember other room ↔ r.IsMember other room ∧ ¬ (other = id ∧ r.HasJoined id room)
  get?_joined : ∀ other, r'.joined.get? other = if id = other then none else r.joined.get? other
  noEmpty_rooms : r.rooms.NoEmpty → r'.rooms.NoEmpty
  closed_eq : r'.closed = r.closed

theorem current_forget :
    (r.forget session).current userId =
      if userId = session.userId ∧ r.current userId = some session.id then none
      else r.current userId := by
  unfold forget
  by_cases hc : r.current session.userId = some session.id
  · rw [if_pos hc]
    by_cases hu : userId = session.userId
    · subst hu
      rw [if_pos ⟨rfl, hc⟩]
      exact (Table.get?_erase ..).trans (if_pos rfl)
    · rw [if_neg (fun h => hu h.1)]
      exact (Table.get?_erase ..).trans (if_neg (Ne.symm hu))
  · -- The identity is current with another session, which is not forgotten.
    rw [if_neg hc, if_neg]
    rintro ⟨rfl, h⟩
    exact hc h

@[simp] theorem sessions_forget : (r.forget session).sessions = r.sessions := by
  unfold forget
  split <;> rfl

@[simp] theorem rooms_forget : (r.forget session).rooms = r.rooms := by
  unfold forget
  split <;> rfl

@[simp] theorem joined_forget : (r.forget session).joined = r.joined := by
  unfold forget
  split <;> rfl

@[simp] theorem closed_forget : (r.forget session).closed = r.closed := by
  unfold forget
  split <;> rfl

theorem remove_eq_none_iff : r.remove id = none ↔ r.sessions.get? id = none := by
  simp [remove]

theorem removed_of_remove (h : r.remove id = some (session, r')) : Removed r id session r' := by
  obtain ⟨found, hfound, hpair⟩ := Option.map_eq_some_iff.mp h
  obtain ⟨rfl, rfl⟩ := Prod.mk.inj hpair
  -- The rooms to leave are those of the reverse table as it was before.
  refine ⟨hfound, ?_, ?_, ?_, ?_, ?_, ?_⟩
  · intro other
    rw [sessions_foldl_detach, sessions_forget, Table.get?_erase]
  · intro userId
    rw [current, byUser_foldl_detach]
    exact current_forget
  · intro other room
    rw [isMember_foldl_detach, mem_roomsOf, IsMember, rooms_forget]
    exact Iff.rfl
  · intro other
    rw [joined_foldl_detach, joined_forget, Table.get?_erase]
  · intro hne
    apply noEmpty_rooms_foldl_detach
    rw [rooms_forget]
    exact hne
  · rw [closed_foldl_detach, closed_forget]

namespace Removed

variable (h : Removed r id session r')

include h

theorem hasJoined_iff : r'.HasJoined other room ↔ other ≠ id ∧ r.HasJoined other room := by
  unfold HasJoined Table.Holds
  rw [h.get?_joined]
  split
  · rename_i hk
    simp [hk]
  · rename_i hk
    simp [Ne.symm hk]

theorem noEmpty_joined (hne : r.joined.NoEmpty) : r'.joined.NoEmpty := by
  intro k s hk
  rw [h.get?_joined] at hk
  split at hk
  · exact absurd hk (by simp)
  · exact hne k s hk

theorem contains_iff : r'.contains other = true ↔ other ≠ id ∧ r.contains other = true := by
  unfold Registry.contains Table.contains
  rw [h.get?_sessions]
  split
  · rename_i hk
    simp [hk]
  · rename_i hk
    simp [Ne.symm hk]

theorem registered_of_registered {found : Session}
    (hs : r'.sessions.get? other = some found) : r.sessions.get? other = some found := by
  rw [h.get?_sessions] at hs
  split at hs
  · exact absurd hs (by simp)
  · exact hs

/-- An identity that is current afterwards was current before. -/
theorem current_eq_some (hc : r'.current userId = some other) : r.current userId = some other := by
  rw [h.current_eq] at hc
  split at hc
  · exact absurd hc (by simp)
  · exact hc

end Removed

/-! ### Registering a session -/

@[simp] theorem current_enter :
    (r.enter session).current userId =
      if session.userId = userId then some session.id else r.current userId :=
  Table.get?_insert ..

@[simp] theorem get?_sessions_enter :
    (r.enter session).sessions.get? id =
      if session.id = id then some session else r.sessions.get? id :=
  Table.get?_insert ..

/-- Another session of the identity is evicted if it is registered; the table of identities may also
name one that is not. -/
theorem insert_cases (r : Registry) (session : Session) :
    (∃ rival evicted rest, r.rival? session = some rival ∧ r.remove rival = some (evicted, rest) ∧
      r.insert session = (some evicted, rest.enter session)) ∨
    ((∀ rival, r.rival? session = some rival → r.sessions.get? rival = none) ∧
      r.insert session = (none, r.enter session)) := by
  unfold insert
  cases hr : r.rival? session with
  | none => exact Or.inr ⟨by simp, rfl⟩
  | some rival =>
    cases hm : r.remove rival with
    | none =>
      -- Nothing here says that whoever is current is registered.
      refine Or.inr ⟨?_, by simp [hm]⟩
      intro other ho
      obtain rfl := Option.some_inj.mp ho
      exact remove_eq_none_iff.mp hm
    | some pair =>
      obtain ⟨evicted, rest⟩ := pair
      exact Or.inl ⟨rival, evicted, rest, rfl, hm, by simp [hm]⟩

theorem rival?_eq_some_iff :
    r.rival? session = some other ↔
      r.current session.userId = some other ∧ other ≠ session.id := by
  simp [rival?, Option.filter_eq_some_iff]

/-- Whoever is registered after a session was registered is that session, or was there before. -/
theorem registered_of_insert {found : Session}
    (h : (r.insert session).2.sessions.get? id = some found) :
    found = session ∨ r.sessions.get? id = some found := by
  rcases insert_cases r session with ⟨rival, evicted, rest, -, hm, he⟩ | ⟨-, he⟩
  · rw [he, get?_sessions_enter] at h
    split at h
    · exact Or.inl (Option.some_inj.mp h).symm
    · exact Or.inr ((removed_of_remove hm).registered_of_registered h)
  · rw [he, get?_sessions_enter] at h
    split at h
    · exact Or.inl (Option.some_inj.mp h).symm
    · exact Or.inr h

/-- An identity that is current after a session was registered is that of the session, or was
current before. -/
theorem current_of_insert (h : (r.insert session).2.current userId = some other) :
    session.userId = userId ∨ r.current userId = some other := by
  rcases insert_cases r session with ⟨rival, evicted, rest, -, hm, he⟩ | ⟨-, he⟩
  · rw [he, current_enter] at h
    split at h
    · exact Or.inl ‹_›
    · exact Or.inr ((removed_of_remove hm).current_eq_some h)
  · rw [he, current_enter] at h
    split at h
    · exact Or.inl ‹_›
    · exact Or.inr h

/-! ### Joining and leaving -/

theorem isMember_join :
    (r.join id roomId).2.IsMember other room ↔
      r.IsMember other room ∨ (r.contains id = true ∧ other = id ∧ room = roomId) := by
  unfold join
  split
  · rename_i hc
    simp only [IsMember, Table.holds_insert_insert, hc, true_and, and_comm]
  · rename_i hc
    simp [hc]

theorem hasJoined_join :
    (r.join id roomId).2.HasJoined other room ↔
      r.HasJoined other room ∨ (r.contains id = true ∧ other = id ∧ room = roomId) := by
  unfold join
  split
  · rename_i hc
    simp only [HasJoined, Table.holds_insert_insert, hc, true_and]
  · rename_i hc
    simp [hc]

@[simp] theorem byUser_join : (r.join id roomId).2.byUser = r.byUser := by
  unfold join
  split <;> rfl

@[simp] theorem sessions_join : (r.join id roomId).2.sessions = r.sessions := by
  unfold join
  split <;> rfl

@[simp] theorem closed_join : (r.join id roomId).2.closed = r.closed := by
  unfold join
  split <;> rfl

theorem noEmpty_rooms_join (h : r.rooms.NoEmpty) : (r.join id roomId).2.rooms.NoEmpty := by
  unfold join
  split
  · exact h.insert (FinSet.mem_insert.mpr (Or.inl rfl))
  · exact h

theorem noEmpty_joined_join (h : r.joined.NoEmpty) : (r.join id roomId).2.joined.NoEmpty := by
  unfold join
  split
  · exact h.insert (FinSet.mem_insert.mpr (Or.inl rfl))
  · exact h

/-- Leaving a room takes both sides of the membership away, if the reverse table has it. -/
theorem leave_cases (r : Registry) (id : SessionId) (roomId : String) :
    (r.HasJoined id roomId ∧ ∃ rooms, r.joined.get? id = some rooms ∧ r.leave id roomId =
      (true, detach { r with joined := store r.joined id (rooms.erase roomId) } id roomId)) ∨
    (¬ r.HasJoined id roomId ∧ r.leave id roomId = (false, r)) := by
  unfold leave HasJoined Table.Holds
  cases hr : r.joined.get? id with
  | none => exact Or.inr ⟨by simp, rfl⟩
  | some rooms =>
    by_cases hm : roomId ∈ rooms
    · exact Or.inl ⟨⟨rooms, rfl, hm⟩, rooms, rfl, by simp [hm]⟩
    · refine Or.inr ⟨?_, by simp [hm]⟩
      rintro ⟨s, hs, ha⟩
      obtain rfl := Option.some_inj.mp hs
      exact hm ha

theorem isMember_leave :
    (r.leave id roomId).2.IsMember other room ↔
      r.IsMember other room ∧ ¬ (r.HasJoined id roomId ∧ other = id ∧ room = roomId) := by
  rcases leave_cases r id roomId with ⟨hj, rooms, -, he⟩ | ⟨hj, he⟩
  · rw [he, isMember_detach]
    simp [hj, IsMember]
  · simp [he, hj]

theorem hasJoined_leave :
    (r.leave id roomId).2.HasJoined other room ↔
      r.HasJoined other room ∧ ¬ (other = id ∧ room = roomId) := by
  rcases leave_cases r id roomId with ⟨hj, rooms, hr, he⟩ | ⟨hj, he⟩
  · rw [he]
    unfold HasJoined
    rw [joined_detach, holds_store]
    split
    · rename_i hk
      subst hk
      simp [Table.Holds, hr, and_comm]
    · rename_i hk
      simp [Ne.symm hk]
  · rw [he]
    constructor
    · intro h
      refine ⟨h, ?_⟩
      rintro ⟨rfl, rfl⟩
      exact hj h
    · exact And.left

@[simp] theorem byUser_leave : (r.leave id roomId).2.byUser = r.byUser := by
  rcases leave_cases r id roomId with ⟨-, rooms, -, he⟩ | ⟨-, he⟩
  · rw [he, byUser_detach]
  · rw [he]

@[simp] theorem sessions_leave : (r.leave id roomId).2.sessions = r.sessions := by
  rcases leave_cases r id roomId with ⟨-, rooms, -, he⟩ | ⟨-, he⟩
  · rw [he, sessions_detach]
  · rw [he]

@[simp] theorem closed_leave : (r.leave id roomId).2.closed = r.closed := by
  rcases leave_cases r id roomId with ⟨-, rooms, -, he⟩ | ⟨-, he⟩
  · rw [he, closed_detach]
  · rw [he]

theorem noEmpty_rooms_leave (h : r.rooms.NoEmpty) : (r.leave id roomId).2.rooms.NoEmpty := by
  rcases leave_cases r id roomId with ⟨-, rooms, -, he⟩ | ⟨-, he⟩
  · rw [he]
    exact noEmpty_rooms_detach h
  · rw [he]
    exact h

theorem noEmpty_joined_leave (h : r.joined.NoEmpty) : (r.leave id roomId).2.joined.NoEmpty := by
  rcases leave_cases r id roomId with ⟨-, rooms, -, he⟩ | ⟨-, he⟩
  · rw [he, joined_detach]
    exact noEmpty_store h
  · rw [he]
    exact h

end Registry

end RoomRelay
