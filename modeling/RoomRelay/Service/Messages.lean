import RoomRelay.Request
import RoomRelay.Service.Basic

/-!
# Sending and listing messages

## Main definitions

* `sendMessage` — stores a message in a room that exists
* `pageSize`, `listMessages` — a window of a room's history
-/

namespace RoomRelay

/-- The size of a window if none is asked for. -/
def defaultPageSize : Int := 50

/-- The greatest size of a window. -/
def maxPageSize : Int := 100

/-- The size of a window: one that is not positive counts as not asked for. -/
def pageSize : Option Int → Int
  | some n => if 0 < n then min n maxPageSize else defaultPageSize
  | none => defaultPageSize

/-- Stores a message and notes that its room is active. -/
def sendMessage (senderId : String) (request : SendMessage) : Service Message := do
  Service.check request.check
  if (request.draft senderId).isEmpty then Service.fail (.domain .emptyContent)
  match ← Service.store (.findRoom request.roomId) with
  | none => Service.fail (.domain (.unknownRoom request.roomId))
  | some _ =>
    let message ← Service.store (.createMessage (request.draft senderId))
    Service.store (.touch message.roomId)
    return message

/-- A window of a room's history, oldest message first; the offset counts from the newest one. -/
def listMessages (roomId : Uuid) (limit offset : Option Int) : Service (List Message) :=
  Service.store (.findMessages roomId (pageSize limit) (max (offset.getD 0) 0))

end RoomRelay
