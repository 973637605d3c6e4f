/-!
# What is asked of a presence store

A presence store keeps a marker for each identity that is online, and for each room the identities
that type there.

## Main definitions

* `PresenceCall` — what can be asked
* `PresenceCall.Answer` — what is answered
-/

namespace RoomRelay

/-- What can be asked of a presence store. -/
inductive PresenceCall
  /-- To set the marker of an identity. -/
  | setOnline (userId : String)
  /-- To clear it. -/
  | setOffline (userId : String)
  /-- Whether it is set. -/
  | isOnline (userId : String)
  /-- To note that an identity types in a room. -/
  | addTyping (roomId userId : String)
  /-- To note that it has stopped. -/
  | removeTyping (roomId userId : String)
  /-- Who types in a room. -/
  | listTyping (roomId : String)
  deriving DecidableEq

/-- What is answered. -/
abbrev PresenceCall.Answer : PresenceCall → Type
  | setOnline _ | setOffline _ | addTyping _ _ | removeTyping _ _ => Unit
  | isOnline _ => Bool
  | listTyping _ => List String

/-- The call changes something. -/
def PresenceCall.isWrite : PresenceCall → Bool
  | isOnline _ | listTyping _ => false
  | _ => true

end RoomRelay
