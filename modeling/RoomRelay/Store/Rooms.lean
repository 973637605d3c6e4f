import RoomRelay.Room
import RoomRelay.Table

/-!
# Rooms in memory

## Main definitions

* `RoomStore`, `RoomStore.get?` — the rooms by their identifiers
* `Room.ofPlan`, `RoomStore.add` — a new room
* `RoomStore.roomsOf` — the rooms of an identity, most recently active first
* `RoomStore.touch` — a room is active
-/

namespace RoomRelay

/-- The texts without repeats, in the order in which they first come. -/
def withoutRepeats (texts : List String) : List String :=
  (texts.foldl FinSet.insert {}).toList

/-- The room stored for a plan under an identifier at a time; a member named twice joins once. -/
def Room.ofPlan (plan : RoomPlan) (memberIds : List String) (id : Uuid) (now : Timestamp) :
    Room where
  id := id
  name := plan.name
  kind := plan.kind
  avatarUrl := none
  createdBy := plan.createdBy
  createdAt := now
  updatedAt := now
  members := (withoutRepeats memberIds).map fun userId => ⟨id, userId, plan.roleFor userId, now⟩

/-- The rooms by their identifiers. -/
structure RoomStore where
  /-- The rooms. -/
  rooms : Table Uuid Room := {}
  deriving Inhabited

namespace RoomStore

/-- The room with an identifier. -/
def get? (s : RoomStore) (id : Uuid) : Option Room := s.rooms.get? id

/-- The store with a room more. -/
def add (s : RoomStore) (room : Room) : RoomStore := ⟨s.rooms.insert room.id room⟩

/-- A room that comes before another one in a listing was active later; of two that were active at
the same time the one with the lesser identifier comes first. -/
def comesBefore (a b : Room) : Bool :=
  if a.updatedAt = b.updatedAt then a.id.toNat ≤ b.id.toNat else b.updatedAt < a.updatedAt

/-- The rooms of an identity, most recently active first. -/
def roomsOf (s : RoomStore) (userId : String) : List Room :=
  (s.rooms.values.filter (·.hasMember userId)).mergeSort comesBefore

/-- The members of a room; an unknown one has none. -/
def membersOf (s : RoomStore) (roomId : Uuid) : List Member :=
  ((s.get? roomId).map (·.members)).getD []

/-- The store in which a room was active at a time; an unknown room stays so. -/
def touch (s : RoomStore) (roomId : Uuid) (now : Timestamp) : RoomStore :=
  match s.get? roomId with
  | some room => ⟨s.rooms.insert roomId { room with updatedAt := now }⟩
  | none => s

end RoomStore

end RoomRelay
