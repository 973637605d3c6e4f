import RoomRelay.Room

/-!
# What is asked of the stores of rooms and messages

## Main definitions

* `StoreCall` — what can be asked
* `StoreCall.Answer` — what is answered
-/

namespace RoomRelay

/-- What can be asked of the stores of rooms and messages. -/
inductive StoreCall
  /-- To keep a message. -/
  | createMessage (draft : MessageDraft)
  /-- The messages of a room: of all but the `offset` newest, the `limit` newest, oldest first. -/
  | findMessages (roomId : Uuid) (limit offset : Int)
  /-- To keep a room with these members. -/
  | createRoom (plan : RoomPlan) (memberIds : List String)
  /-- A room. -/
  | findRoom (id : Uuid)
  /-- The rooms of an identity, most recently active first. -/
  | roomsOf (userId : String)
  /-- The members of a room. -/
  | membersOf (roomId : Uuid)
  /-- To note that a room is active. -/
  | touch (roomId : Uuid)

/-- What is answered. -/
abbrev StoreCall.Answer : StoreCall → Type
  | createMessage _ => Message
  | findMessages _ _ _ => List Message
  | createRoom _ _ => Room
  | findRoom _ => Option Room
  | roomsOf _ => List Room
  | membersOf _ => List Member
  | touch _ => Unit

end RoomRelay
