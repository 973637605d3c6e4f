import RoomRelay.Session.Mailbox
import RoomRelay.Uuid
import RoomRelay.Text.Quoted

/-!
# Sessions

A session is one live connection of a verified identity. It is told from other sessions of the same
identity by an identifier of its own; its queue is kept by the hub.

## Main definitions

* `SessionId`, `Session` — a session
* `Session.describe` — a session for people
-/

namespace RoomRelay

/-- The identifier of a session. -/
abbrev SessionId := Uuid

/-- One live connection of an identity. -/
structure Session where
  /-- The identifier. -/
  id : SessionId
  /-- The identity. -/
  userId : String
  deriving DecidableEq, Inhabited

/-- The session for people; whether it is closed is up to its queue. -/
def Session.describe (session : Session) (closed : Bool) : String :=
  "Session \x7b id: SessionId(" ++ session.id.toString ++ "), user_id: " ++
    Text.quote session.userId ++ ", closed: " ++ toString closed ++ " \x7d"

end RoomRelay
