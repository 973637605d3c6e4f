import RoomRelay.Service.Basic

/-!
# Who is online and who types

## Main definitions

* `isOnline`, `typingUsers`, `setTyping`
-/

namespace RoomRelay

/-- Whether an identity is online. -/
def isOnline (userId : String) : Service Bool := Service.presence (.isOnline userId)

/-- Who types in a room. -/
def typingUsers (roomId : String) : Service (List String) := Service.presence (.listTyping roomId)

/-- Notes that an identity types in a room or has stopped. -/
def setTyping (roomId userId : String) (isTyping : Bool) : Service Unit :=
  if isTyping then Service.presence (.addTyping roomId userId)
  else Service.presence (.removeTyping roomId userId)

end RoomRelay
