import RoomRelay.Proofs.Service.Petitions

/-!
# How rooms are founded

Whoever makes a room is its first member and alone administers it; the others are those who were
asked for, trimmed, without blanks and without repeats. Repeats are left out twice, once when the
members are gathered and once when the room is stored, and the second time finds none. What holds of
a room when it is made holds of it for good.

## Main definitions

* `roster` — who is to be in a room, said without going through the list
* `Room.WellFormed` — what holds of every room

## Main results

* `memberList_eq_roster` — who is gathered is the roster
* `createRoom_accepts_iff` — which requests are accepted
* `wellFormed_of_refusal?` — a room that is made is well-formed
* `Petition.Run.rooms_wellFormed` — so is every room that is stored after a run
-/

namespace RoomRelay

open Routine

variable {creatorId userId : String} {requested members : List String} {request : CreateRoom}

/-! ### Who is in a room -/

/-- The creator, then whoever is asked for: trimmed, without blanks, and of those that come more
than once the first one only. -/
def roster (creatorId : String) (requested : List String) : List String :=
  (creatorId :: (requested.map Text.trim).filter (· ≠ "")).eraseDups

/-- A text at the end of a list adds nothing to the list without repeats if it stands there
already. -/
theorem eraseDups_concat (texts : List String) (last : String) :
    (texts ++ [last]).eraseDups =
      if last ∈ texts then texts.eraseDups else texts.eraseDups ++ [last] := by
  rw [List.eraseDups_append]
  split
  · rename_i hmem
    simp [List.removeAll, hmem]
  · rename_i hnew
    simp [List.removeAll, hnew, List.eraseDups_cons]

/-- Who is gathered one after the other is the roster. -/
theorem memberList_eq_roster (creatorId : String) (requested : List String) :
    memberList creatorId requested = roster creatorId requested := by
  -- Members are added at the end, so the induction is on the requests read backwards.
  induction requested using List.reverseRecOn with
  | nil => rfl
  | append_singleton requested other ih =>
    have hgather : memberList creatorId (requested ++ [other]) =
        addMember (memberList creatorId requested) other := by
      rw [memberList, List.foldl_append]
      rfl
    rw [hgather, ih, addMember]
    unfold roster
    rw [List.map_append, List.filter_append, ← List.cons_append]
    by_cases hblank : Text.trim other = ""
    · simp [hblank]
    · have hother : ([other].map Text.trim).filter (· ≠ "") = [Text.trim other] := by
        simp [hblank]
      rw [hother, eraseDups_concat]
      simp only [hblank, false_or, List.mem_eraseDups]

theorem nodup_addMember (h : members.Nodup) (other : String) : (addMember members other).Nodup := by
  unfold addMember
  split
  · exact h
  · rename_i hnew
    rw [List.nodup_append]
    refine ⟨h, by simp, ?_⟩
    rintro member hmember last hlast rfl
    rw [List.mem_singleton] at hlast
    exact hnew (Or.inr (hlast ▸ hmember))

theorem nodup_foldl_addMember (h : members.Nodup) (requested : List String) :
    (requested.foldl addMember members).Nodup := by
  induction requested generalizing members with
  | nil => exact h
  | cons other requested ih => exact ih (nodup_addMember h other)

theorem nodup_roster (creatorId : String) (requested : List String) :
    (roster creatorId requested).Nodup := by
  rw [← memberList_eq_roster]
  exact nodup_foldl_addMember (by simp) requested

theorem roster_eq_cons (creatorId : String) (requested : List String) :
    ∃ others, roster creatorId requested = creatorId :: others :=
  ⟨_, List.eraseDups_cons⟩

/-- Nothing is left out of a list without repeats. -/
theorem withoutRepeats_of_nodup (h : members.Nodup) : withoutRepeats members = members := by
  -- What has been taken so far and what is still to come have nothing in common.
  have hfold : ∀ (rest : List String) (taken : FinSet String), (taken.toList ++ rest).Nodup →
      (rest.foldl FinSet.insert taken).toList = taken.toList ++ rest := by
    intro rest
    induction rest with
    | nil => exact fun taken _ => (List.append_nil _).symm
    | cons member rest ih =>
      intro taken hnodup
      have hnew : member ∉ taken.toList := fun hmem =>
        (List.nodup_append.mp hnodup).2.2 member hmem member List.mem_cons_self rfl
      have hinsert : (taken.insert member).toList = taken.toList ++ [member] := by
        rw [FinSet.insert, dif_neg hnew]
      rw [List.foldl_cons, ih (taken.insert member) (by rw [hinsert]; simpa using hnodup), hinsert,
        List.append_assoc, List.singleton_append]
  exact hfold members {} h

/-! ### Well-formed rooms -/

/-- What holds of a room from its beginning to its end. -/
structure Room.WellFormed (room : Room) : Prop where
  /-- No identity is a member twice. -/
  nodup_members : (room.members.map (·.userId)).Nodup
  /-- The first member made the room and administers it, and nobody else does. -/
  founded : ∃ founder others, room.members = founder :: others ∧
    founder.userId = room.createdBy ∧ founder.role = .admin ∧ ∀ m ∈ others, m.role = .member
  /-- Its members say that they are members of this room. -/
  roomId_members : ∀ m ∈ room.members, m.roomId = room.id
  /-- A direct room is for two. -/
  length_of_direct : room.kind = .direct → room.members.length = 2
  /-- The name has between one and 255 characters. -/
  length_name : 1 ≤ room.name.length ∧ room.name.length ≤ 255

/-- When a room was last active has no part in it. -/
theorem Room.WellFormed.touched {room : Room} (h : room.WellFormed) (time : Timestamp) :
    { room with updatedAt := time : Room }.WellFormed :=
  ⟨h.nodup_members, h.founded, h.roomId_members, h.length_of_direct, h.length_name⟩

theorem userIds_ofPlan (plan : RoomPlan) (id : Uuid) (now : Timestamp) (h : members.Nodup) :
    (Room.ofPlan plan members id now).members.map (·.userId) = members := by
  simp only [Room.ofPlan, withoutRepeats_of_nodup h, List.map_map, Function.comp_def, List.map_id']

/-- Which requests are not refused. -/
theorem refusal?_eq_none_iff :
    request.refusal? creatorId = none ↔
      (1 ≤ request.name.length ∧ request.name.length ≤ 255) ∧
      (request.kind = .group ∨ (roster creatorId request.memberIds).length = 2) := by
  unfold CreateRoom.refusal? CreateRoom.check
  rw [memberList_eq_roster]
  by_cases hname : 1 ≤ request.name.length ∧ request.name.length ≤ maxNameLength
  · have hname' : 1 ≤ request.name.length ∧ request.name.length ≤ 255 := hname
    rw [if_pos hname]
    cases request.kind <;> simp [hname']
  · rw [if_neg hname]
    exact iff_of_false (by simp) fun h => hname h.1

/-- A room that is made on a request within its limits is well-formed. -/
theorem wellFormed_of_refusal? (h : request.refusal? creatorId = none) (id : Uuid)
    (now : Timestamp) :
    (Room.ofPlan (request.plan creatorId) (roster creatorId request.memberIds) id
      now).WellFormed := by
  obtain ⟨hname, hkind⟩ := refusal?_eq_none_iff.mp h
  have hnodup := nodup_roster creatorId request.memberIds
  have hids := userIds_ofPlan (request.plan creatorId) id now hnodup
  refine ⟨?_, ?_, ?_, ?_, hname⟩
  · rwa [hids]
  · -- No other member has the identity of the first one, to which alone the role is given.
    obtain ⟨others, hroster⟩ := roster_eq_cons creatorId request.memberIds
    rw [hroster] at hnodup ⊢
    refine ⟨⟨id, creatorId, .admin, now⟩,
      others.map fun userId => ⟨id, userId, (request.plan creatorId).roleFor userId, now⟩,
      ?_, rfl, rfl, ?_⟩
    · rw [Room.ofPlan, withoutRepeats_of_nodup hnodup, List.map_cons]
      simp [RoomPlan.roleFor, CreateRoom.plan]
    · intro m hm
      obtain ⟨userId, huser, rfl⟩ := List.mem_map.mp hm
      have hne : userId ≠ creatorId := fun heq =>
        (List.nodup_cons.mp hnodup).1 (heq ▸ huser)
      exact if_neg hne
  · intro m hm
    obtain ⟨userId, -, rfl⟩ := List.mem_map.mp hm
    rfl
  · intro hdirect
    have hlength := congrArg List.length hids
    rw [List.length_map] at hlength
    rw [hlength]
    exact hkind.resolve_left fun hgroup => absurd (hdirect.symm.trans hgroup) (by simp)

/-! ### Requests -/

/-- A request that is refused changes nothing. -/
theorem run_createRoom_of_error {g g' : Gateway} {failure : ServiceFailure}
    (h : (createRoom creatorId request).run.run g = (.error failure, g')) : g' = g := by
  rw [run_createRoom] at h
  split at h
  · exact (Prod.mk.inj h).2.symm
  · exact absurd (Prod.mk.inj h).1 (by simp)

/-- A request that is accepted adds a room to the store, with the members of the roster. -/
theorem run_createRoom_of_ok {g g' : Gateway} {room : Room}
    (h : (createRoom creatorId request).run.run g = (.ok room, g')) :
    g'.rooms = g.rooms.add room ∧ room.name = request.name ∧ room.kind = request.kind ∧
      room.createdBy = creatorId ∧
      room.members.map (·.userId) = roster creatorId request.memberIds := by
  rw [run_createRoom] at h
  split at h
  · exact absurd (Prod.mk.inj h).1 (by simp)
  · obtain ⟨hroom, rfl⟩ := Prod.mk.inj h
    obtain rfl := Except.ok.inj hroom
    refine ⟨rfl, rfl, rfl, rfl, ?_⟩
    rw [memberList_eq_roster]
    exact userIds_ofPlan _ _ _ (nodup_roster creatorId request.memberIds)

/-- Which requests are accepted. -/
theorem createRoom_accepts_iff {g : Gateway} :
    (∃ room, ((createRoom creatorId request).run.run g).1 = .ok room) ↔
      (1 ≤ request.name.length ∧ request.name.length ≤ 255) ∧
      (request.kind = .group ∨ (roster creatorId request.memberIds).length = 2) := by
  rw [← refusal?_eq_none_iff, run_createRoom]
  cases request.refusal? creatorId with
  | some failure => simp
  | none => exact iff_of_true ⟨_, rfl⟩ rfl

/-! ### Runs -/

namespace Petition

variable {start last : Gateway} {past : List (Moment Gateway (Petition × Outcome))} {room : Room}

/-- Every room that was made in the course of a run was well-formed when it was made. -/
theorem Run.wellFormed_of_made (run : Run start past last) (h : room ∈ made past) :
    room.WellFormed := by
  induction run with
  | nil => simp [made] at h
  | @snoc past g after event _ step ih =>
    rw [made_snoc, List.mem_append] at h
    obtain @⟨petition⟩ := step
    rcases h with hold | hnew
    · exact ih hold
    · rcases carryOut_cases petition g with ⟨failure, he⟩ |
        ⟨creatorId, request, -, hrefusal, he⟩ | ⟨senderId, request, room, -, -, he⟩
      · simp [he, Outcome.room?] at hnew
      · rw [he] at hnew
        obtain rfl := List.mem_singleton.mp hnew
        rw [memberList_eq_roster]
        exact wellFormed_of_refusal? hrefusal _ _
      · simp [he, Outcome.room?] at hnew

/-- **Rooms.** Rooms are made and messages are sent, in any order, from a store without rooms on.
Then every room that is stored stands under its identifier and is well-formed. A room that is stored
at some moment is stored ever after, and changes in nothing but the time at which it was last
active, as long as no two rooms have got the same identifier. And in every such state: a request to
make a room is accepted exactly if its name has between one and 255 characters and the room is a
group or its roster is of two; if it is accepted the room with that roster is added to the store,
and if it is refused nothing changes. -/
theorem Run.rooms_wellFormed (run : Run start past last) (empty : start.rooms = {}) :
    (∀ id room, last.rooms.get? id = some room → room.id = id ∧ room.WellFormed) ∧
    (DistinctRooms past → ∀ m ∈ past, ∀ id room, m.after.rooms.get? id = some room →
      ∃ time, last.rooms.get? id = some { room with updatedAt := time }) ∧
    ∀ creatorId request,
      let answered := (createRoom creatorId request).run.run last
      ((∃ room, answered.1 = .ok room) ↔
        (1 ≤ request.name.length ∧ request.name.length ≤ 255) ∧
        (request.kind = .group ∨ (roster creatorId request.memberIds).length = 2)) ∧
      (∀ room, answered.1 = .ok room →
        answered.2.rooms = last.rooms.add room ∧ room.name = request.name ∧
          room.kind = request.kind ∧ room.createdBy = creatorId ∧
          room.members.map (·.userId) = roster creatorId request.memberIds) ∧
      ∀ failure, answered.1 = .error failure → answered.2 = last := by
  refine ⟨?_, ?_, ?_⟩
  · intro id room hroom
    obtain ⟨hid, first, hfirst, heq⟩ := Run.made_of_stored run empty hroom
    rw [heq] at hid ⊢
    exact ⟨hid, (Run.wellFormed_of_made run hfirst).touched _⟩
  · intro distinct m hm id room hroom
    exact Run.stored_of_stored run empty distinct hm hroom
  · intro creatorId request answered
    refine ⟨createRoom_accepts_iff, ?_, ?_⟩
    · intro room hroom
      exact run_createRoom_of_ok (Prod.ext hroom rfl)
    · intro failure hfailure
      exact run_createRoom_of_error (Prod.ext hfailure rfl)

/-- Alice makes a group, asking for herself and twice for Bob, and then a direct room with him; a
direct room for three is refused, and so is a room without a name. Bob says something in the
group. -/
def housewarming : List Petition :=
  [.create "alice" ⟨"den", .group, ["bob", " alice", "", "bob "]⟩,
    .create "alice" ⟨"tête-à-tête", .direct, ["\u2003bob"]⟩,
    .create "alice" ⟨"crowd", .direct, ["bob", "carol"]⟩, .create "bob" ⟨"", .group, []⟩,
    .send "bob" ⟨.version4 0, "hi", .text, none⟩]

/-- The group as it was made. -/
def den : Room := .ofPlan ⟨"den", .group, "alice"⟩ ["alice", "bob"] (.version4 0) ⟨0, 0⟩

/-- Two rooms are made; at the end the group is well-formed, and is as it was when it was made but
for when it was last active. -/
theorem Run.rooms_wellFormed_of_housewarming :
    let run := play nowhere housewarming
    nowhere.rooms = {} ∧ DistinctRooms run.1 ∧
      (made run.1).map (·.id) = [.version4 0, .version4 1] ∧
      (∃ m ∈ run.1, m.after.rooms.get? (.version4 0) = some den) ∧
      ∃ time, run.2.rooms.get? (.version4 0) = some { den with updatedAt := time } ∧
        { den with updatedAt := time : Room }.WellFormed := by
  intro run
  have hdistinct : DistinctRooms run.1 := by decide +kernel
  have hmade : (made run.1).map (·.id) = [.version4 0, .version4 1] := by decide +kernel
  have hfirst : run.1.head?.map (fun m => m.after.rooms.get? (.version4 0)) = some (some den) := by
    decide +kernel
  obtain ⟨m, hm, hden⟩ := Option.map_eq_some_iff.mp hfirst
  have hmem : m ∈ run.1 := List.mem_of_mem_head? hm
  obtain ⟨hwell, hkept, -⟩ := Run.rooms_wellFormed (Run.of_play nowhere housewarming) rfl
  obtain ⟨time, htime⟩ := hkept hdistinct m hmem _ _ hden
  exact ⟨rfl, hdistinct, hmade, ⟨m, hmem, hden⟩, time, htime, (hwell _ _ htime).2⟩

end Petition

end RoomRelay
