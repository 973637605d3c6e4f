import RoomRelay.Json.Value

/-!
# Documents that answer requests about presence and health

## Main definitions

* `presenceDocument`, `typingDocument`, `healthDocument`
-/

namespace RoomRelay

/-- Whether an identity is online. -/
def presenceDocument (userId : String) (online : Bool) : Json.Value :=
  .object [("userId", .string userId), ("online", .bool online)]

/-- Who types in a room. -/
def typingDocument (roomId : String) (userIds : List String) : Json.Value :=
  .object [("roomId", .string roomId), ("userIds", .array (userIds.map .string))]

/-- That the service is there. -/
def healthDocument (service : String) : Json.Value :=
  .object [("status", .string "ok"), ("service", .string service)]

end RoomRelay
