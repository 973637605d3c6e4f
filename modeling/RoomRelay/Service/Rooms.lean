import RoomRelay.Request
import RoomRelay.Service.Basic
import RoomRelay.Text.Blank

/-!
# Making and finding rooms

## Main definitions

* `memberList` — who is to be in a room
* `createRoom`, `getRoom`, `listRooms`
-/

namespace RoomRelay

/-- The list with the identity that is asked for, unless it is blank or there already. -/
def addMember (members : List String) (requested : String) : List String :=
  if Text.trim requested = "" ∨ Text.trim requested ∈ members then members
  else members ++ [Text.trim requested]

/-- The creator, then whom the creator asks for, without repeats. -/
def memberList (creatorId : String) (requested : List String) : List String :=
  requested.foldl addMember [creatorId]

/-- Makes a room; the creator is a member of it. -/
def createRoom (creatorId : String) (request : CreateRoom) : Service Room := do
  Service.check request.check
  let members := memberList creatorId request.memberIds
  if request.kind = .direct ∧ members.length ≠ 2 then
    Service.fail (.domain (.directMemberCount members.length))
  Service.store (.createRoom ⟨request.name, request.kind, creatorId⟩ members)

/-- A room that must exist. -/
def getRoom (id : Uuid) : Service Room := do
  match ← Service.store (.findRoom id) with
  | some room => return room
  | none => Service.fail (.notFound "Room" id.toString)

/-- The rooms of an identity, most recently active first. -/
def listRooms (userId : String) : Service (List Room) := Service.store (.roomsOf userId)

end RoomRelay
