import RoomRelay.Failure
import RoomRelay.Presence.KeyServer
import RoomRelay.Presence.Memory

/-!
# Presence on a key server

Each call to the presence store becomes one request to a key server: a single command, or several
that are executed together. Markers and typing sets live under keys of their own, made from the
identity or the room.

## Main definitions

* `KeyRequest`, `PresenceCall.request` — what a call sends
* `PresenceCall.read` — the answer that a reply means
* `PresenceCall.remotely` — a call answered by a key server
-/

namespace RoomRelay

/-- What is sent to a key server at once. -/
inductive KeyRequest
  /-- One command. -/
  | single (command : KeyCommand)
  /-- Commands that are executed together. -/
  | together (commands : List KeyCommand)
  deriving DecidableEq

namespace KeyRequest

/-- The words that are sent. -/
def words : KeyRequest → List (List String)
  | single command => [command.words]
  | together commands => [["MULTI"]] ++ commands.map KeyCommand.words ++ [["EXEC"]]

end KeyRequest

/-- A key server executes a request; the replies to commands that are executed together make one
reply. -/
def KeyServer.serve (s : KeyServer) (now : Nat) : KeyRequest → KeyServer.Reply × KeyServer
  | .single command => s.execute now command
  | .together commands => ((.list (s.executeAll now commands).1), (s.executeAll now commands).2)

/-- The key of the marker of an identity. -/
def onlineKey (userId : String) : String := "user:" ++ userId ++ ":online"

/-- The key of the typing set of a room. -/
def typingKey (roomId : String) : String := "conversation:" ++ roomId ++ ":typing"

namespace PresenceCall

/-- What a call sends; `stamp` is the text that is kept as a marker. -/
def request (stamp : String) : PresenceCall → KeyRequest
  | setOnline userId => .single (.set (onlineKey userId) stamp)
  | setOffline userId => .single (.del (onlineKey userId))
  | isOnline userId => .single (.exists (onlineKey userId))
  | addTyping roomId userId =>
    .together [.sadd (typingKey roomId) userId, .expire (typingKey roomId) typingLifetime]
  | removeTyping roomId userId => .single (.srem (typingKey roomId) userId)
  | listTyping roomId => .single (.smembers (typingKey roomId))

/-- The failure of a reply that cannot be read. -/
def unreadable : DomainFailure := .cache "Redis command error: Response was of incompatible type"

/-- A reply that is no failure means that a write was done. -/
def readDone : KeyServer.Reply → Except DomainFailure Unit
  | .failure message => .error (.cache ("Redis command error: " ++ message))
  | _ => .ok ()

/-- A number other than zero means yes, and nothing at all means no. -/
def readFlag : KeyServer.Reply → Except DomainFailure Bool
  | .failure message => .error (.cache ("Redis command error: " ++ message))
  | .null => .ok false
  | .integer n => .ok (n ≠ 0)
  | .text _ | .list _ => .error unreadable

/-- The text of a reply that can stand in a list of texts. -/
def readText : KeyServer.Reply → Except DomainFailure String
  | .text value => .ok value
  | .integer n => .ok (toString n)
  | _ => .error unreadable

/-- A list of texts is put in order; nothing at all means no text. -/
def readList : KeyServer.Reply → Except DomainFailure (List String)
  | .failure message => .error (.cache ("Redis command error: " ++ message))
  | .null => .ok []
  | .list items => PresenceMemory.sorted <$> items.mapM readText
  | .text value => .ok [value]
  | .integer _ => .error unreadable

/-- The answer that a reply means. -/
def read : (call : PresenceCall) → KeyServer.Reply → Except DomainFailure call.Answer
  | setOnline _ | setOffline _ | addTyping _ _ | removeTyping _ _ => readDone
  | isOnline _ => readFlag
  | listTyping _ => readList

/-- The call answered by a key server. -/
def remotely (call : PresenceCall) (stamp : String) (now : Nat) (s : KeyServer) :
    Except DomainFailure call.Answer × KeyServer :=
  (call.read (s.serve now (call.request stamp)).1, (s.serve now (call.request stamp)).2)

end PresenceCall

end RoomRelay
