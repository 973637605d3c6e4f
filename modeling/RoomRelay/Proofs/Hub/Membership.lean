import Mathlib.Data.List.DropRight
import Mathlib.Data.Set.Card
import RoomRelay.Proofs.Hub.Act

/-!
# Membership told from the history

Who is in which room is kept in two tables, from which sessions disappear in several ways and in
which a session may turn up again. Told from what happened, membership is simpler: a session is in a
room if it is registered and the last thing that it wanted of the room, since it last became
registered, was to join. This file shows that the tables say the same after every run, whatever
sessions and rooms it is about and however often a session is registered.

## Main definitions

* `Hub.Appears`, `Hub.sinceAppeared` — the last time that a session became registered
* `Hub.wishes` — the joins and leaves of one session and one room
* `Hub.Belongs` — membership told from the history

## Main results

* `Hub.Step.hasJoined_iff_of_wish`, `Hub.Step.hasJoined_iff` — one act, seen by one membership
* `Hub.Run.hasJoined_iff_belongs`, `Hub.Run.membership` — the tables and the history agree
-/

namespace RoomRelay

/-- As many keys as the table has entries. -/
theorem Table.encard_keys {κ ν : Type} [DecidableEq κ] (t : Table κ ν) :
    {key | t.contains key = true}.encard = t.size := by
  have hkeys : {key | t.contains key = true} = (t.keys.toFinset : Set κ) := by
    ext key
    rw [List.coe_toFinset, Set.mem_ofPred_eq, Set.mem_ofPred_eq, contains,
      Option.isSome_iff_exists, keys, List.mem_map]
    constructor
    · rintro ⟨v, hv⟩
      exact ⟨(key, v), get?_eq_some_iff.mp hv, rfl⟩
    · rintro ⟨⟨k, v⟩, hmem, rfl⟩
      exact ⟨v, get?_eq_some_iff.mpr hmem⟩
  have hnodup : t.keys.Nodup := t.nodup
  rw [hkeys, Set.encard_coe_eq_coe_finsetCard, List.toFinset_card_of_nodup hnodup, keys,
    List.length_map, size]

/-- Who is taken out leaves the rooms of all others as they are. -/
theorem Registry.Removed.hasJoined_iff_of_contains {r r' : Registry} {id other : SessionId}
    {roomId : String} {session : Session} (h : r.Removed other session r')
    (hc : r'.contains id = true) : r'.HasJoined id roomId ↔ r.HasJoined id roomId := by
  rw [h.hasJoined_iff]
  exact and_iff_right (h.contains_iff.mp hc).1

namespace Hub

variable {hub hub' start : Hub} {id : SessionId} {roomId : String} {session : Session} {act : Act}
variable {past : List (Moment Hub Act)} {m : Moment Hub Act}

/-! ### Membership in the history -/

/-- The session becomes registered. -/
def Appears (id : SessionId) (m : Moment Hub Act) : Prop :=
  m.before.registry.contains id = false ∧ m.after.registry.contains id = true

instance : DecidablePred (Appears id) := fun _ => inferInstanceAs (Decidable (_ ∧ _))

/-- What happened since the session last became registered. -/
def sinceAppeared (id : SessionId) (past : List (Moment Hub Act)) : List (Moment Hub Act) :=
  past.rtakeWhile fun m => ¬ Appears id m

/-- Whether the act is to make the session a member of the room or to end that, if it is about the
two at all. -/
def Act.wish? (id : SessionId) (roomId : String) : Act → Option Bool
  | join k q => if k = id ∧ q = roomId then some true else none
  | leave k q => if k = id ∧ q = roomId then some false else none
  | _ => none

/-- The joins and leaves of a session and a room, earliest first. -/
def wishes (id : SessionId) (roomId : String) (moments : List (Moment Hub Act)) : List Bool :=
  moments.filterMap (·.event.wish? id roomId)

/-- The session is registered, and of the joins and leaves of the two since it last became
registered the latest is a join. -/
def Belongs (id : SessionId) (roomId : String) (past : List (Moment Hub Act)) (hub : Hub) : Prop :=
  hub.registry.contains id = true ∧
    (wishes id roomId (sinceAppeared id past)).getLast? = some true

instance : Decidable (Belongs id roomId past hub) := inferInstanceAs (Decidable (_ ∧ _))

theorem sinceAppeared_snoc : sinceAppeared id (past ++ [m]) =
    if Appears id m then [] else sinceAppeared id past ++ [m] := by
  unfold sinceAppeared
  rw [List.rtakeWhile_concat]
  by_cases h : Appears id m <;> simp [h]

theorem getLast?_wishes_snoc {moments : List (Moment Hub Act)} :
    (wishes id roomId (moments ++ [m])).getLast? =
      (m.event.wish? id roomId).or (wishes id roomId moments).getLast? := by
  unfold wishes
  rw [List.filterMap_append, List.getLast?_append]
  cases hw : m.event.wish? id roomId <;> simp [hw]

/-! ### One act, seen by one membership -/

theorem hasJoined_enroll
    (hc : (hub.enroll session).2.registry.contains id = true) :
    (hub.enroll session).2.registry.HasJoined id roomId ↔ hub.registry.HasJoined id roomId := by
  rw [registry_enroll] at hc ⊢
  split
  · exact Iff.rfl
  · rename_i hopen
    rw [if_neg hopen] at hc
    rcases Registry.insert_cases hub.registry session with
      ⟨rival, evicted, rest, hrival, hm, he⟩ | ⟨-, he⟩
    · have hr := Registry.removed_of_remove hm
      have hne : id ≠ rival := by
        -- Whoever is evicted is not the session that comes, so it is registered no more.
        rintro rfl
        have hother := (Registry.rival?_eq_some_iff.mp hrival).2
        rw [he, Registry.contains_iff, Registry.get?_sessions_enter, if_neg hother.symm,
          hr.get?_sessions, if_pos rfl] at hc
        exact absurd hc (by simp)
      rw [he]
      exact hr.hasJoined_iff.trans (and_iff_right hne)
    · rw [he]
      exact Iff.rfl

/-- A join makes a registered session a member, and a leave ends that. -/
theorem Step.hasJoined_iff_of_wish {wish : Bool} (step : Step hub act hub')
    (h : hub.registry.Indexed) (hw : act.wish? id roomId = some wish) :
    hub'.registry.HasJoined id roomId ↔ wish = true ∧ hub.registry.contains id = true := by
  cases step with
  | @join k q =>
    simp only [Act.wish?, Option.ite_none_right_eq_some, Option.some_inj] at hw
    obtain ⟨⟨rfl, rfl⟩, rfl⟩ := hw
    have hjoin : (hub.join k q).2.registry.HasJoined k q ↔
        hub.registry.HasJoined k q ∨ (hub.registry.contains k = true ∧ k = k ∧ q = q) :=
      Registry.hasJoined_join
    rw [hjoin]
    -- A member is registered already, so a join that changes nothing is no exception.
    constructor
    · rintro (hold | ⟨hc, -⟩)
      · exact ⟨rfl, h.contains_of_joined hold.contains⟩
      · exact ⟨rfl, hc⟩
    · exact fun hc => Or.inr ⟨hc.2, rfl, rfl⟩
  | @leave k q =>
    simp only [Act.wish?, Option.ite_none_right_eq_some, Option.some_inj] at hw
    obtain ⟨⟨rfl, rfl⟩, rfl⟩ := hw
    have hleave : (hub.leave k q).2.registry.HasJoined k q ↔
        hub.registry.HasJoined k q ∧ ¬ (k = k ∧ q = q) := Registry.hasJoined_leave
    simp [hleave]
  | _ => simp [Act.wish?] at hw

/-- Any other act leaves the membership of a session as it is that is registered afterwards. -/
theorem Step.hasJoined_iff (step : Step hub act hub')
    (hw : act.wish? id roomId = none) (hc : hub'.registry.contains id = true) :
    hub'.registry.HasJoined id roomId ↔ hub.registry.HasJoined id roomId := by
  cases step with
  | enroll => exact hasJoined_enroll hc
  | @withdraw session =>
    rcases withdraw_cases hub session with ⟨-, he⟩ | hr
    · rw [he]
    · obtain ⟨found, hfound⟩ := removed_of_remove hr
      exact hfound.hasJoined_iff_of_contains hc
  | @join k q =>
    have hother : ¬ (hub.registry.contains k = true ∧ id = k ∧ roomId = q) := by
      rintro ⟨-, rfl, rfl⟩
      simp [Act.wish?] at hw
    exact Registry.hasJoined_join.trans (or_iff_left hother)
  | @leave k q =>
    have hother : ¬ (id = k ∧ roomId = q) := by
      rintro ⟨rfl, rfl⟩
      simp [Act.wish?] at hw
    exact Registry.hasJoined_leave.trans (and_iff_left hother)
  | @broadcast envelope order perm =>
    -- A broadcast takes out one member after the other, none of which is registered afterwards.
    refine registry_broadcastTo (P := fun r => r.contains id = true →
      (r.HasJoined id roomId ↔ hub.registry.HasJoined id roomId)) ?_ (fun _ => Iff.rfl) hc
    intro r r' k s hr ih hcontains
    rw [hr.hasJoined_iff_of_contains hcontains]
    exact ih (hr.contains_iff.mp hcontains).2
  | drain =>
    rw [registry_drain] at hc
    simp [Registry.drain, Registry.contains, Table.contains] at hc
  | take => exact Iff.rfl
  | handle => exact Iff.rfl

/-! ### The tables and the history -/

/-- The reverse table has a room among those of a session exactly if the session belongs there. -/
theorem Run.hasJoined_iff_belongs (run : Run start past hub) (empty : start.registry = {}) :
    hub.registry.HasJoined id roomId ↔ Belongs id roomId past hub := by
  have hindexed : start.registry.Indexed := by
    rw [empty]
    exact Registry.indexed_empty
  induction run with
  | nil =>
    unfold Belongs Registry.HasJoined Registry.contains
    simp [empty, Table.contains]
  | @snoc past hub hub' act run step ih =>
    have hi := Run.indexed run hindexed
    have hi' := step.indexed hi
    cases hc' : hub'.registry.contains id with
    | false =>
      have hno : ¬ hub'.registry.HasJoined id roomId := by
        intro hj
        exact absurd (hc'.symm.trans (hi'.contains_of_joined hj.contains)) (by simp)
      simp [Belongs, hno, hc']
    | true =>
      unfold Belongs at ih ⊢
      rw [sinceAppeared_snoc, and_iff_right hc']
      by_cases happ : Appears id ⟨hub, act, hub'⟩
      · -- It comes without rooms, and its history begins anew.
        have hno : ¬ hub.registry.HasJoined id roomId := by
          intro hj
          exact absurd (happ.1.symm.trans (hi.contains_of_joined hj.contains)) (by simp)
        rw [if_pos happ]
        cases hw : act.wish? id roomId with
        | none => simpa [wishes, step.hasJoined_iff hw hc'] using hno
        | some wish => simp [wishes, step.hasJoined_iff_of_wish hi hw, happ.1]
      -- It was registered before, so its history goes on, and the act is the latest if it counts.
      · have hc : hub.registry.contains id = true := by
          by_contra hc
          exact happ ⟨Bool.eq_false_iff.mpr hc, hc'⟩
        rw [if_neg happ, getLast?_wishes_snoc]
        cases hw : act.wish? id roomId with
        | none =>
          rw [step.hasJoined_iff hw hc', Option.none_or]
          exact ih.trans (and_iff_right hc)
        | some wish =>
          rw [step.hasJoined_iff_of_wish hi hw, and_iff_left hc, Option.some_or, Option.some_inj]

/-- A join answers whether the session was registered and no member yet. -/
theorem join_eq_true_iff : (hub.join id roomId).1 = true ↔
    hub.registry.contains id = true ∧ ¬ hub.registry.IsMember id roomId := by
  unfold join Registry.join Registry.IsMember
  split
  · rename_i hc
    simp [hc, Table.holds_iff_mem_getD]
  · rename_i hc
    simp [hc]

/-- A leave answers whether the session was a member. -/
theorem leave_eq_true_iff :
    (hub.leave id roomId).1 = true ↔ hub.registry.HasJoined id roomId := by
  rcases Registry.leave_cases hub.registry id roomId with ⟨hj, rooms, -, he⟩ | ⟨hj, he⟩
  · simp [leave, he, hj]
  · simp [leave, he, hj]

/-- **Membership equals history.** After any run from an empty registry, with whatever sessions and
rooms, the members of each room and the rooms of each session are told by the history. A join
answers that it made a member exactly if the session did not belong to the room before and does
afterwards, and a leave that it ended a membership exactly in the opposite case. There are as many
rooms as somebody belongs to. -/
theorem Run.membership (run : Run start past hub) (empty : start.registry = {}) :
    (∀ id roomId, (id ∈ hub.registry.memberIds roomId ↔ Belongs id roomId past hub) ∧
      (roomId ∈ hub.registry.roomsOf id ↔ Belongs id roomId past hub)) ∧
    (∀ id roomId, (hub.join id roomId).1 = true ↔
      ¬ Belongs id roomId past hub ∧
        Belongs id roomId (past ++ [⟨hub, .join id roomId, (hub.join id roomId).2⟩])
          (hub.join id roomId).2) ∧
    (∀ id roomId, (hub.leave id roomId).1 = true ↔
      Belongs id roomId past hub ∧
        ¬ Belongs id roomId (past ++ [⟨hub, .leave id roomId, (hub.leave id roomId).2⟩])
          (hub.leave id roomId).2) ∧
    {roomId | ∃ id, Belongs id roomId past hub}.encard = hub.registry.roomCount := by
  have hi : hub.registry.Indexed := by
    refine run.indexed ?_
    rw [empty]
    exact Registry.indexed_empty
  have hbelongs : ∀ id roomId, hub.registry.HasJoined id roomId ↔ Belongs id roomId past hub :=
    fun _ _ => run.hasJoined_iff_belongs empty
  have hmember : ∀ id roomId, hub.registry.IsMember id roomId ↔ Belongs id roomId past hub :=
    fun id roomId => hi.isMember_iff.trans (hbelongs id roomId)
  refine ⟨fun id roomId => ⟨?_, ?_⟩, ?_, ?_, ?_⟩
  · rw [Registry.mem_memberIds, hmember]
  · rw [Registry.mem_roomsOf, hbelongs]
  · intro id roomId
    have hstep : Step hub (.join id roomId) (hub.join id roomId).2 := .join
    have hwish : (Act.join id roomId).wish? id roomId = some true := if_pos ⟨rfl, rfl⟩
    rw [← Run.hasJoined_iff_belongs (run.snoc hstep) empty, hstep.hasJoined_iff_of_wish hi hwish,
      join_eq_true_iff, hmember]
    simp [and_comm]
  · intro id roomId
    have hstep : Step hub (.leave id roomId) (hub.leave id roomId).2 := .leave
    have hwish : (Act.leave id roomId).wish? id roomId = some false := if_pos ⟨rfl, rfl⟩
    rw [← Run.hasJoined_iff_belongs (run.snoc hstep) empty, hstep.hasJoined_iff_of_wish hi hwish,
      leave_eq_true_iff, hbelongs]
    simp
  -- No room is kept without members, so the rooms of the table are those somebody belongs to.
  · have hrooms : {roomId | ∃ id, Belongs id roomId past hub} =
        {roomId | hub.registry.rooms.contains roomId = true} := by
      ext roomId
      rw [Set.mem_ofPred_eq, Set.mem_ofPred_eq, hi.rooms_noEmpty.contains_iff]
      exact exists_congr fun id => (hmember id roomId).symm
    rw [hrooms, Table.encard_keys, Registry.roomCount]

/-- A session that is registered joins a room and is then taken out and registered again, so that it
is in no room; another one leaves a room, joins it twice and is evicted, and the one that takes its
place joins the room as well. -/
def returning : List Act :=
  [.join (sessionOf "alice" 1).id "general", .enroll (sessionOf "alice" 1),
    .join (sessionOf "alice" 1).id "general", .withdraw (sessionOf "alice" 1),
    .enroll (sessionOf "alice" 1), .enroll (sessionOf "bob" 2),
    .leave (sessionOf "bob" 2).id "random", .join (sessionOf "bob" 2).id "random",
    .join (sessionOf "bob" 2).id "random", .enroll (sessionOf "bob" 3),
    .join (sessionOf "bob" 3).id "random"]

theorem Run.membership_of_returning :
    (sessionOf "bob" 3).id ∈ (play {} returning).2.registry.memberIds "random" ∧
    (sessionOf "alice" 1).id ∉ (play {} returning).2.registry.memberIds "general" ∧
    ((play {} returning).2.join (sessionOf "alice" 1).id "general").1 = true := by
  obtain ⟨hmembers, hjoin, -⟩ := Run.membership (Run.of_play returning : Run {} _ _) rfl
  refine ⟨(hmembers _ _).1.mpr ?_, (hmembers _ _).1.not.mpr ?_, (hjoin _ _).mpr ⟨?_, ?_⟩⟩
  all_goals decide

end Hub

end RoomRelay
