import RoomRelay.Proofs.Service.History
import RoomRelay.Service.Rooms

/-!
# Runs of the services

Rooms are made and messages are sent, one after the other, and each petition for either is granted
or refused. A run of petitions is recorded with what came of each of them. The rooms that are stored
after a run are those that were made in its course, and all that changes of them is when they were
last active.

## Main definitions

* `CreateRoom.refusal?` — why a request to make a room is refused
* `Petition`, `Petition.Outcome`, `Petition.carryOut` — a request to the services, and what comes of
  it
* `Petition.Step`, `Petition.Run`, `Petition.play` — runs of them
* `Petition.made`, `Petition.DistinctRooms` — the rooms made in the course of a run

## Main results

* `run_createRoom`, `Petition.carryOut_cases` — a petition is refused and changes nothing, or makes
  a room, or adds a message to one
* `Petition.Run.made_of_stored`, `Petition.Run.stored_of_made` — the rooms that are stored are those
  that were made
-/

namespace RoomRelay

open Routine

/-! ### The store of rooms after a change -/

namespace RoomStore

variable {s : RoomStore} {room : Room} {id roomId : Uuid} {now : Timestamp}

@[simp] theorem get?_add :
    (s.add room).get? id = if room.id = id then some room else s.get? id :=
  Table.get?_insert ..

/-- Every room stands under its own identifier. -/
def Filed (s : RoomStore) : Prop := ∀ id room, s.get? id = some room → room.id = id

/-- A room that is active keeps everything but the time at which it was last so. -/
@[simp] theorem get?_touch :
    (s.touch roomId now).get? id =
      if roomId = id then (s.get? id).map fun room => { room with updatedAt := now }
      else s.get? id := by
  by_cases hid : roomId = id
  · subst hid
    rw [if_pos rfl, touch]
    cases h : s.get? roomId with
    | none => exact h
    | some room => exact (Table.get?_insert ..).trans (if_pos rfl)
  · rw [if_neg hid, touch]
    cases s.get? roomId with
    | none => rfl
    | some room => exact (Table.get?_insert ..).trans (if_neg hid)

end RoomStore

/-! ### Making a room -/

/-- Why a request to make a room is refused before the store is asked. -/
def CreateRoom.refusal? (request : CreateRoom) (creatorId : String) : Option ServiceFailure :=
  match request.check with
  | .error fault => some (.validation fault.message)
  | .ok () =>
    if request.kind = .direct ∧ (memberList creatorId request.memberIds).length ≠ 2 then
      some (.domain (.directMemberCount (memberList creatorId request.memberIds).length))
    else none

/-- The room that is asked for. -/
def CreateRoom.plan (request : CreateRoom) (creatorId : String) : RoomPlan :=
  ⟨request.name, request.kind, creatorId⟩

/-- A room is stored, or the request is refused and nothing changes. -/
theorem run_createRoom (creatorId : String) (request : CreateRoom) (g : Gateway) :
    (createRoom creatorId request).run.run g =
      match request.refusal? creatorId with
      | some failure => (.error failure, g)
      | none =>
        let (room, stored) :=
          g.createRoom (request.plan creatorId) (memberList creatorId request.memberIds)
        (.ok room, stored) := by
  unfold createRoom CreateRoom.refusal? Service.check
  cases hcheck : request.check with
  | error fault => rfl
  | ok _ =>
    by_cases hcount : request.kind = .direct ∧ (memberList creatorId request.memberIds).length ≠ 2
    · simp only [pure_bind, if_pos hcount]
      rfl
    · simp only [pure_bind, if_neg hcount]
      rfl

/-! ### Petitions -/

/-- What an identity asks of the services so that the stores change. -/
inductive Petition
  /-- To make a room. -/
  | create (creatorId : String) (request : CreateRoom)
  /-- To send a message. -/
  | send (senderId : String) (request : SendMessage)

namespace Petition

/-- What comes of a petition. -/
inductive Outcome
  /-- It is refused. -/
  | refused (failure : ServiceFailure)
  /-- A room has been made. -/
  | made (room : Room)
  /-- A message has been accepted. -/
  | posted (message : Message)

/-- A petition is carried out, with nothing in between. -/
def carryOut : Petition → Gateway → Outcome × Gateway
  | create creatorId request, g =>
    match (createRoom creatorId request).run.run g with
    | (.ok room, after) => (.made room, after)
    | (.error failure, after) => (.refused failure, after)
  | send senderId request, g =>
    match (sendMessage senderId request).run.run g with
    | (.ok message, after) => (.posted message, after)
    | (.error failure, after) => (.refused failure, after)

/-- One petition with what comes of it. -/
inductive Step : Gateway → Petition × Outcome → Gateway → Prop
  | carriedOut {g : Gateway} {petition : Petition} :
    Step g (petition, (petition.carryOut g).1) (petition.carryOut g).2

/-- A run of petitions. -/
abbrev Run (start : Gateway) (past : List (Moment Gateway (Petition × Outcome))) (last : Gateway) :
    Prop :=
  Trace Step start past last

/-- The run that some petitions lead to. -/
def play (g : Gateway) (petitions : List Petition) :
    List (Moment Gateway (Petition × Outcome)) × Gateway :=
  Trace.follow
    (fun g petition => some ((petition, (petition.carryOut g).1), (petition.carryOut g).2)) g
    petitions

theorem Run.of_play (g : Gateway) (petitions : List Petition) :
    Run g (play g petitions).1 (play g petitions).2 := by
  refine Trace.of_follow ?_ petitions
  rintro g petition event after h
  obtain ⟨rfl, rfl⟩ := Prod.mk.inj (Option.some_inj.mp h)
  exact .carriedOut

/-- A gateway without rooms, whose clock shows one second more at each reading. -/
def nowhere : Gateway where
  supply := { ids := .version4, times := fun n => ⟨n, 0⟩ }

/-- The room that has been made. -/
def Outcome.room? : Outcome → Option Room
  | made room => some room
  | refused _ | posted _ => none

/-- The rooms made in the course of a run, in their order. -/
def made (past : List (Moment Gateway (Petition × Outcome))) : List Room :=
  past.filterMap fun m => m.event.2.room?

/-- No two rooms made in the course of a run have got the same identifier. -/
def DistinctRooms (past : List (Moment Gateway (Petition × Outcome))) : Prop :=
  ((made past).map (·.id)).Nodup

instance (past : List (Moment Gateway (Petition × Outcome))) : Decidable (DistinctRooms past) :=
  inferInstanceAs (Decidable (List.Nodup _))

variable {start last g : Gateway} {past : List (Moment Gateway (Petition × Outcome))}
variable {petition : Petition} {outcome : Outcome} {room : Room} {message : Message} {id : Uuid}

theorem made_snoc {m : Moment Gateway (Petition × Outcome)} :
    made (past ++ [m]) = made past ++ m.event.2.room?.toList :=
  filterMap_snoc _ _ _

/-- A petition is refused and changes nothing; or it makes a room, in which case the request was
within its limits; or it adds a message to a room that is stored. -/
theorem carryOut_cases (petition : Petition) (g : Gateway) :
    (∃ failure, petition.carryOut g = (.refused failure, g)) ∨
    (∃ creatorId request, petition = .create creatorId request ∧
      request.refusal? creatorId = none ∧
      petition.carryOut g =
        let (room, after) :=
          g.createRoom (request.plan creatorId) (memberList creatorId request.memberIds)
        (.made room, after)) ∨
    (∃ senderId request room, petition = .send senderId request ∧
      g.rooms.get? request.roomId = some room ∧
      petition.carryOut g =
        let (message, stored) := g.createMessage (request.draft senderId)
        (.posted message, stored.touch request.roomId)) := by
  cases petition with
  | create creatorId request =>
    simp only [carryOut, run_createRoom]
    cases hrefusal : request.refusal? creatorId with
    | some failure => exact Or.inl ⟨failure, rfl⟩
    | none => exact Or.inr (Or.inl ⟨creatorId, request, rfl, hrefusal, rfl⟩)
  | send senderId request =>
    simp only [carryOut, run_sendMessage]
    cases request.refusal? with
    | some failure => exact Or.inl ⟨failure, rfl⟩
    | none =>
      cases hroom : g.rooms.get? request.roomId with
      | none => exact Or.inl ⟨_, rfl⟩
      | some room => exact Or.inr (Or.inr ⟨senderId, request, room, rfl, hroom, rfl⟩)

/-- The store of rooms after a message has been added to one of them. -/
theorem rooms_post {draft : MessageDraft} (h : g.rooms.get? id = some room) :
    ((g.createMessage draft).2.touch id).rooms =
      g.rooms.touch id (g.supply.times (g.supply.readings + 1)) := by
  have hstored : (g.createMessage draft).2.rooms.get? id = some room := h
  simp only [Gateway.touch, hstored]
  rfl

/-- What a petition does to the store of rooms: nothing; or the room that is made is added; or a
room is active at a time that has been read. -/
theorem rooms_carryOut (petition : Petition) (g : Gateway) :
    ((petition.carryOut g).1.room? = none ∧ (petition.carryOut g).2.rooms = g.rooms) ∨
    (∃ room, (petition.carryOut g).1.room? = some room ∧
      (petition.carryOut g).2.rooms = g.rooms.add room) ∨
    ((petition.carryOut g).1.room? = none ∧ ∃ roomId now,
      (petition.carryOut g).2.rooms = g.rooms.touch roomId now) := by
  rcases carryOut_cases petition g with ⟨failure, he⟩ | ⟨creatorId, request, -, -, he⟩ |
    ⟨senderId, request, room, -, hroom, he⟩
  · rw [he]
    exact Or.inl ⟨rfl, rfl⟩
  · rw [he]
    exact Or.inr (Or.inl ⟨_, rfl, rfl⟩)
  · rw [he]
    exact Or.inr (Or.inr ⟨rfl, _, _, rooms_post hroom⟩)

/-! ### The rooms that are stored -/

/-- Whatever room is stored after a run was made in its course, and is as it was made but for when
it was last active. -/
theorem Run.made_of_stored (run : Run start past last) (empty : start.rooms = {})
    (h : last.rooms.get? id = some room) :
    room.id = id ∧ ∃ first ∈ made past, room = { first with updatedAt := room.updatedAt } := by
  induction run generalizing id room with
  | nil =>
    rw [empty] at h
    exact absurd h (by simp [RoomStore.get?])
  | @snoc past g after event _ step ih =>
    -- What was stored before the last petition was made before it.
    have hold : ∀ {room}, g.rooms.get? id = some room →
        room.id = id ∧ ∃ first ∈ made (past ++ [⟨g, event, after⟩]),
          room = { first with updatedAt := room.updatedAt } := by
      intro room hroom
      obtain ⟨hid, first, hfirst, heq⟩ := ih hroom
      rw [made_snoc]
      exact ⟨hid, first, List.mem_append_left _ hfirst, heq⟩
    obtain @⟨petition⟩ := step
    rcases rooms_carryOut petition g with ⟨-, he⟩ | ⟨new, hnew, he⟩ | ⟨-, roomId, now, he⟩
    · rw [he] at h
      exact hold h
    · rw [he, RoomStore.get?_add] at h
      split at h
      · rename_i hid
        obtain rfl := Option.some_inj.mp h
        refine ⟨hid, new, ?_, rfl⟩
        rw [made_snoc, List.mem_append, hnew]
        exact Or.inr (List.mem_singleton_self new)
      · exact hold h
    · rw [he, RoomStore.get?_touch] at h
      split at h
      · obtain ⟨before, hbefore, rfl⟩ := Option.map_eq_some_iff.mp h
        obtain ⟨hid, first, hfirst, heq⟩ := hold hbefore
        refine ⟨hid, first, hfirst, ?_⟩
        rw [heq]
      · exact hold h

theorem Run.filed (run : Run start past last) (empty : start.rooms = {}) : last.rooms.Filed :=
  fun _ _ h => (Run.made_of_stored run empty h).1

/-- Whatever room was made in the course of a run is stored after it, as it was made but for when it
was last active. -/
theorem Run.stored_of_made (run : Run start past last) (distinct : DistinctRooms past)
    (h : room ∈ made past) :
    ∃ time, last.rooms.get? room.id = some { room with updatedAt := time } := by
  induction run with
  | nil => simp [made] at h
  | @snoc past g after event run step ih =>
    unfold DistinctRooms at distinct
    rw [made_snoc, List.map_append, List.nodup_append] at distinct
    obtain ⟨hpast, -, hnew⟩ := distinct
    rw [made_snoc, List.mem_append] at h
    obtain @⟨petition⟩ := step
    -- A petition leaves the rooms alone, adds one, or notes that one has been active.
    rcases rooms_carryOut petition g with ⟨hnone, he⟩ | ⟨new, hsome, he⟩ |
      ⟨hnone, roomId, now, he⟩
    · rw [hnone] at h
      rw [he]
      exact ih hpast (h.resolve_right (by simp))
    · rw [hsome] at h hnew
      rw [he, RoomStore.get?_add]
      rcases h with hold | hlast
      · -- The new room has an identifier of its own, so it does not take the place of this one.
        have hne : new.id ≠ room.id :=
          Ne.symm (hnew _ (List.mem_map_of_mem hold) _ (by simp))
        rw [if_neg hne]
        exact ih hpast hold
      · obtain rfl : room = new := by simpa using hlast
        exact ⟨room.updatedAt, if_pos rfl⟩
    · rw [hnone] at h
      obtain ⟨time, htime⟩ := ih hpast (h.resolve_right (by simp))
      rw [he, RoomStore.get?_touch]
      split
      · exact ⟨now, by rw [htime, Option.map_some]⟩
      · exact ⟨time, htime⟩

/-- A room that is stored at some moment of a run is stored at its end, and is the same but for when
it was last active. -/
theorem Run.stored_of_stored (run : Run start past last) (empty : start.rooms = {})
    (distinct : DistinctRooms past) {m : Moment Gateway (Petition × Outcome)} (hm : m ∈ past)
    (h : m.after.rooms.get? id = some room) :
    ∃ time, last.rooms.get? id = some { room with updatedAt := time } := by
  obtain ⟨before, after, rfl⟩ := List.append_of_mem hm
  obtain ⟨hbefore, hstep, -⟩ := run.at_moment
  obtain ⟨rfl, first, hfirst, heq⟩ := Run.made_of_stored (hbefore.snoc hstep) empty h
  -- Both states have the room as it was made.
  have hmem : first ∈ made (before ++ m :: after) := by
    rw [List.append_cons, made, List.filterMap_append]
    exact List.mem_append_left _ hfirst
  obtain ⟨time, htime⟩ := Run.stored_of_made run distinct hmem
  refine ⟨time, ?_⟩
  rw [heq]
  exact htime

end Petition

end RoomRelay
