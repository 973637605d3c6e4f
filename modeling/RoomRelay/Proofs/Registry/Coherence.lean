import RoomRelay.Proofs.Registry.Lookup

/-!
# The four tables agree

The tables of the registry repeat each other: identities and sessions, rooms and joined rooms. This
file states what it means that they agree, and shows that each operation keeps it so. The part about
rooms holds for any sessions whatever; the part about identities needs that a session is registered
under an identifier of its own.

## Main definitions

* `Registry.Indexed` — rooms and joined rooms mirror each other, without leftovers
* `Registry.Coherent` — identities and sessions mirror each other as well
* `Registry.Fits` — the identifier of a session is not in use by another identity

## Main results

* `Indexed.removed`, `Indexed.insert`, `Indexed.join`, `Indexed.leave`, `Indexed.drain`
* `Coherent.removed`, `Coherent.insert`, `Coherent.join`, `Coherent.leave`, `Coherent.drain`
-/

namespace RoomRelay.Registry

variable {r r' : Registry} {id other : SessionId} {roomId room userId : String} {session : Session}

/-- Rooms and joined rooms are two sides of one relation, which only registered sessions enter;
nothing empty is kept, and nothing at all once the registry is closed. -/
structure Indexed (r : Registry) : Prop where
  session_id : ∀ {id session}, r.sessions.get? id = some session → session.id = id
  isMember_iff : ∀ {id roomId}, r.IsMember id roomId ↔ r.HasJoined id roomId
  contains_of_joined : ∀ {id}, r.joined.contains id = true → r.contains id = true
  rooms_noEmpty : r.rooms.NoEmpty
  joined_noEmpty : r.joined.NoEmpty
  closed_empty : r.closed = true →
    r.byUser = {} ∧ r.sessions = {} ∧ r.rooms = {} ∧ r.joined = {}

/-- All four tables agree: besides, an identity is current with a session exactly if that session is
registered and is of that identity. -/
structure Coherent (r : Registry) : Prop extends Indexed r where
  current_iff : ∀ {userId id}, r.current userId = some id ↔
    ∃ session, r.sessions.get? id = some session ∧ session.userId = userId

/-- Nobody of another identity is registered under the identifier of the session. -/
def Fits (r : Registry) (session : Session) : Prop :=
  ∀ other, r.sessions.get? session.id = some other → other.userId = session.userId

theorem indexed_empty : Indexed {} where
  session_id h := by simp at h
  isMember_iff := by simp [IsMember, HasJoined]
  contains_of_joined h := by simp [Table.contains] at h
  rooms_noEmpty := Table.noEmpty_empty
  joined_noEmpty := Table.noEmpty_empty
  closed_empty h := by simp at h

theorem coherent_empty : Coherent {} where
  toIndexed := indexed_empty
  current_iff := by simp [current]

namespace Indexed

variable (h : Indexed r)

include h

theorem contains_of_isMember (hm : r.IsMember id roomId) : r.contains id = true :=
  h.contains_of_joined (h.isMember_iff.mp hm).contains

/-- Who is in no room has no rooms, and the other way round. -/
theorem roomsOf_eq_nil (hc : r.contains id = false) : r.roomsOf id = [] := by
  rw [List.eq_nil_iff_forall_not_mem]
  intro room hr
  have hj : r.HasJoined id room := mem_roomsOf.mp hr
  rw [h.contains_of_joined hj.contains] at hc
  exact absurd hc (by simp)

theorem current_of_closed (hc : r.closed = true) : r.current userId = none := by
  rw [current, (h.closed_empty hc).1]
  rfl

theorem removed (hr : Removed r id session r') : Indexed r' where
  session_id := by
    intro k s hk
    rw [hr.get?_sessions] at hk
    split at hk
    · exact absurd hk (by simp)
    · exact h.session_id hk
  isMember_iff := by
    intro k q
    rw [hr.isMember_iff, hr.hasJoined_iff, h.isMember_iff]
    constructor
    · rintro ⟨hj, hne⟩
      refine ⟨?_, hj⟩
      rintro rfl
      exact hne ⟨rfl, hj⟩
    · rintro ⟨hne, hj⟩
      exact ⟨hj, fun hk => hne hk.1⟩
  contains_of_joined := by
    intro k hk
    -- No empty set is kept, so whoever is a key has a room, and had it before.
    obtain ⟨room, hj⟩ := (hr.noEmpty_joined h.joined_noEmpty).contains_iff.mp hk
    have hj' := hr.hasJoined_iff.mp hj
    exact hr.contains_iff.mpr ⟨hj'.1, h.contains_of_joined hj'.2.contains⟩
  rooms_noEmpty := hr.noEmpty_rooms h.rooms_noEmpty
  joined_noEmpty := hr.noEmpty_joined h.joined_noEmpty
  closed_empty := by
    -- A closed registry has no session that could have been taken out.
    intro hc
    rw [hr.closed_eq] at hc
    have hs := hr.registered
    rw [(h.closed_empty hc).2.1] at hs
    exact absurd hs (by simp)

theorem enter (hopen : r.closed = false) : Indexed (r.enter session) where
  session_id := by
    intro k s hk
    rw [get?_sessions_enter] at hk
    split at hk
    · rename_i hid
      obtain rfl := Option.some_inj.mp hk
      exact hid
    · exact h.session_id hk
  isMember_iff := h.isMember_iff
  contains_of_joined := by
    intro k hk
    have hc := h.contains_of_joined hk
    rw [contains_iff] at hc ⊢
    rw [get?_sessions_enter]
    split
    · exact ⟨session, rfl⟩
    · exact hc
  rooms_noEmpty := h.rooms_noEmpty
  joined_noEmpty := h.joined_noEmpty
  closed_empty hc := absurd (hopen.symm.trans hc) (by simp)

theorem insert (hopen : r.closed = false) : Indexed (r.insert session).2 := by
  rcases insert_cases r session with ⟨rival, evicted, rest, -, hm, he⟩ | ⟨-, he⟩
  · rw [he]
    have hr := removed_of_remove hm
    exact (h.removed hr).enter (hr.closed_eq.trans hopen)
  · rw [he]
    exact h.enter hopen

theorem join : Indexed (r.join id roomId).2 where
  session_id := by
    rw [sessions_join]
    exact h.session_id
  isMember_iff := by
    intro k q
    rw [isMember_join, hasJoined_join, h.isMember_iff]
  contains_of_joined := by
    intro k hk
    rw [contains, sessions_join]
    obtain ⟨room, hj⟩ := (noEmpty_joined_join h.joined_noEmpty).contains_iff.mp hk
    rcases hasJoined_join.mp hj with hold | ⟨hc, rfl, -⟩
    · exact h.contains_of_joined hold.contains
    · exact hc
  rooms_noEmpty := noEmpty_rooms_join h.rooms_noEmpty
  joined_noEmpty := noEmpty_joined_join h.joined_noEmpty
  closed_empty := by
    -- In a closed registry nobody is registered, so nobody joins.
    intro hc
    rw [closed_join] at hc
    have hempty := h.closed_empty hc
    have hnone : r.contains id = false := by simp [contains, Table.contains, hempty.2.1]
    simpa [Registry.join, hnone] using hempty

theorem leave : Indexed (r.leave id roomId).2 where
  session_id := by
    rw [sessions_leave]
    exact h.session_id
  isMember_iff := by
    intro k q
    rw [isMember_leave, hasJoined_leave, h.isMember_iff]
    constructor
    · rintro ⟨hj, hne⟩
      refine ⟨hj, ?_⟩
      rintro ⟨rfl, rfl⟩
      exact hne ⟨hj, rfl, rfl⟩
    · rintro ⟨hj, hne⟩
      exact ⟨hj, fun hk => hne hk.2⟩
  contains_of_joined := by
    intro k hk
    rw [contains, sessions_leave]
    obtain ⟨room, hj⟩ := (noEmpty_joined_leave h.joined_noEmpty).contains_iff.mp hk
    exact h.contains_of_joined (hasJoined_leave.mp hj).1.contains
  rooms_noEmpty := noEmpty_rooms_leave h.rooms_noEmpty
  joined_noEmpty := noEmpty_joined_leave h.joined_noEmpty
  closed_empty := by
    -- In a closed registry nobody has joined a room, so nobody leaves one.
    intro hc
    rw [closed_leave] at hc
    have hempty := h.closed_empty hc
    simpa [Registry.leave, hempty.2.2.2] using hempty

omit h in
theorem drain : Indexed r.drain.2 where
  session_id hs := by simp [Registry.drain] at hs
  isMember_iff := by simp [Registry.drain, IsMember, HasJoined]
  contains_of_joined hj := by simp [Registry.drain, Table.contains] at hj
  rooms_noEmpty := Table.noEmpty_empty
  joined_noEmpty := Table.noEmpty_empty
  closed_empty _ := ⟨rfl, rfl, rfl, rfl⟩

end Indexed

namespace Coherent

variable (h : Coherent r)

include h

theorem current_of_session (hs : r.sessions.get? id = some session) :
    r.current session.userId = some id :=
  h.current_iff.mpr ⟨session, hs, rfl⟩

theorem session_of_current (hc : r.current userId = some id) :
    ∃ session, r.sessions.get? id = some session ∧ session.userId = userId :=
  h.current_iff.mp hc

theorem removed (hr : Removed r id session r') : Coherent r' where
  toIndexed := h.toIndexed.removed hr
  current_iff := by
    intro u k
    have hid := h.session_id hr.registered
    rw [hr.current_eq, hr.get?_sessions]
    by_cases hk : id = k
    · -- The session itself is gone, and so is what its identity was current with.
      subst hk
      simp only [if_true, reduceCtorEq, false_and, exists_false, iff_false]
      split
      · simp
      · rename_i hne
        intro hc
        obtain ⟨s, hs, rfl⟩ := h.session_of_current hc
        obtain rfl := Option.some_inj.mp (hs.symm.trans hr.registered)
        exact hne ⟨rfl, hc.trans (by rw [hid])⟩
    · rw [if_neg hk, ← h.current_iff]
      split
      · rename_i hu
        rw [hu.2, hid]
        simp [hk]
      · exact Iff.rfl

/-- A session can be entered once its identity is current with no other one. -/
theorem enter (hopen : r.closed = false) (hfits : r.Fits session)
    (hfree : ∀ other, r.current session.userId = some other → other = session.id) :
    Coherent (r.enter session) where
  toIndexed := h.toIndexed.enter hopen
  current_iff := by
    intro u k
    rw [current_enter, get?_sessions_enter]
    by_cases hk : session.id = k
    · -- If the identifier was in use, it was by the same identity.
      subst hk
      simp only [if_true, Option.some_inj, exists_eq_left']
      split
      · rename_i hu
        simp [hu]
      · rename_i hu
        simp only [hu, iff_false]
        intro hc
        obtain ⟨s, hs, rfl⟩ := h.session_of_current hc
        exact hu (hfits s hs).symm
    · rw [if_neg hk, ← h.current_iff]
      split
      · rename_i hu
        subst hu
        simp only [Option.some_inj, hk, false_iff]
        intro hc
        exact hk (hfree k hc).symm
      · exact Iff.rfl

/-- The rival of a session is registered, and taking it out leaves the identity with nobody. -/
theorem insert (hopen : r.closed = false) (hfits : r.Fits session) :
    Coherent (r.insert session).2 := by
  rcases insert_cases r session with
    ⟨rival, evicted, rest, hrival, hm, he⟩ | ⟨hrival, he⟩
  · rw [he]
    have hr := removed_of_remove hm
    have hcur := (rival?_eq_some_iff.mp hrival).1
    obtain ⟨s, hs, hu⟩ := h.session_of_current hcur
    obtain rfl := Option.some_inj.mp (hs.symm.trans hr.registered)
    -- The rival is what the identity was current with, so nobody takes its place.
    refine (h.removed hr).enter (hr.closed_eq.trans hopen) ?_ ?_
    · intro other ho
      rw [hr.get?_sessions] at ho
      split at ho
      · exact absurd ho (by simp)
      · exact hfits other ho
    · intro other ho
      rw [hr.current_eq, if_pos ⟨hu.symm, hcur.trans (by rw [h.session_id hs])⟩] at ho
      exact absurd ho (by simp)
  · -- Whoever the identity is current with is registered, so it can only be the session.
    rw [he]
    refine h.enter hopen hfits ?_
    intro other ho
    by_cases hid : other = session.id
    · exact hid
    · obtain ⟨s, hs, -⟩ := h.session_of_current ho
      rw [hrival other (rival?_eq_some_iff.mpr ⟨ho, hid⟩)] at hs
      exact absurd hs (by simp)

theorem join : Coherent (r.join id roomId).2 where
  toIndexed := h.toIndexed.join
  current_iff := by
    intro u k
    rw [current, byUser_join, sessions_join]
    exact h.current_iff

theorem leave : Coherent (r.leave id roomId).2 where
  toIndexed := h.toIndexed.leave
  current_iff := by
    intro u k
    rw [current, byUser_leave, sessions_leave]
    exact h.current_iff

omit h in
theorem drain : Coherent r.drain.2 where
  toIndexed := Indexed.drain
  current_iff := by simp [Registry.drain, current]

end Coherent

end RoomRelay.Registry
