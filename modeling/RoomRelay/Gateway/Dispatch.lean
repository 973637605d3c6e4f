import RoomRelay.Gateway.Registration
import RoomRelay.Protocol.Command
import RoomRelay.Protocol.Event
import RoomRelay.Protocol.RoomKey
import RoomRelay.Service.Messages
import RoomRelay.Service.Presence

/-!
# Commands are carried out

A text frame of a client is decoded and carried out. Whatever goes wrong is noted and otherwise
ignored: it never ends the session, and the client is not told.

## Main definitions

* `dispatch` — carries a command out
* `handleText` — what happens to a text frame
-/

namespace RoomRelay

open Routine

/-- A routine that may fail because of a command. -/
abbrev Handler (α : Type) := ExceptT CommandFailure Routine α

namespace Handler

/-- Does something that cannot fail. -/
def perform {α : Type} (routine : Routine α) : Handler α := ExceptT.lift routine

/-- Fails if the service does. -/
def serve {α : Type} (service : Service α) : Handler α :=
  ExceptT.mk do return (← service.run).mapError .service

/-- The key of a room that must be named. -/
def requireRoom (raw : String) : Handler String :=
  match roomKey raw with
  | some key => return key
  | none => throw (.payload "roomId is required")

/-- The room that a message is for must be an identifier. -/
def requireUuid (raw : String) : Handler Uuid :=
  match Uuid.parse? (Text.trim raw) with
  | some id => return id
  | none => throw (.payload ("invalid roomId: " ++ raw))

end Handler

open Handler

/-- The frame that tells a room about a stored message; nobody is left out. -/
def messageEnvelope (message : Message) : Envelope where
  roomId := message.roomId.toString
  frame := (Event.newMessage message).frame

/-- Stores a message of a session and tells its room. -/
def handleSend (session : Session) (payload : SendPayload) : Handler Unit := do
  let roomId ← requireUuid payload.roomId
  let request : SendMessage := ⟨roomId, payload.content, payload.kind, payload.metadata⟩
  let message ← serve (sendMessage session.userId request)
  discard (perform (broadcast (messageEnvelope message)))
  perform (note .messageBroadcast)

/-- The frame that tells a room that a session types; the session itself is left out. -/
def typingEnvelope (session : Session) (roomId : String) (isTyping : Bool) : Envelope where
  roomId := roomId
  frame := (Event.userTyping roomId session.userId isTyping).frame
  exclude := some session.id

/-- Notes that a session types and tells its room, even if the first part fails. -/
def handleTyping (session : Session) (raw : String) (isTyping : Bool) : Handler Unit := do
  let roomId ← requireRoom raw
  match ← perform (setTyping roomId session.userId isTyping).run with
  | .ok () => pure ()
  | .error _ => perform (note .typingMarkerFailed)
  discard (perform (broadcast (typingEnvelope session roomId isTyping)))

/-- Carries a command of a session out. -/
def dispatch (session : Session) : Command → Handler Unit
  | .joinRoom raw => do
    let roomId ← requireRoom raw
    discard (perform (joinRoom session roomId))
  | .leaveRoom raw => do
    let roomId ← requireRoom raw
    discard (perform (leaveRoom session roomId))
  | .sendMessage payload => handleSend session payload
  | .typing raw isTyping => handleTyping session raw isTyping

/-- Carries a command out and notes a failure. -/
def handleCommand (session : Session) (command : Command) : Routine Unit := do
  match ← (dispatch session command).run with
  | .ok () => return ()
  | .error failure => note (if failure.isClientFault then .commandRejected else .commandFailed)

/-- What happens to a text frame of a session; a closed session is no longer heard. -/
def handleText (session : Session) (text : String) : Routine Unit := do
  if ← ask (.isClosed session.id) then return ()
  match Command.parse text with
  | .ok command => handleCommand session command
  | .error _ => note .frameDiscarded

end RoomRelay
