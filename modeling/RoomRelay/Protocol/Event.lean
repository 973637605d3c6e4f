import RoomRelay.Json.Printer
import RoomRelay.Message

/-!
# Events for the members of a room

The server tells the members of a room what happens there, in frames of the same form as commands.

## Main definitions

* `Event` — a new message, or someone who types
* `Event.document`, `Event.frame` — the event as it is sent
-/

namespace RoomRelay

/-- What happens in a room. -/
inductive Event
  /-- A message has been stored. -/
  | newMessage (message : Message)
  /-- A user types or has stopped. -/
  | userTyping (roomId userId : String) (isTyping : Bool)
  deriving DecidableEq

namespace Event

/-- The word for an event. -/
def name : Event → String
  | newMessage _ => "new_message"
  | userTyping _ _ _ => "user_typing"

/-- What an event tells. -/
def payload : Event → Json.Value
  | newMessage message => .object message.commonFields
  | userTyping roomId userId isTyping =>
    .object [("roomId", .string roomId), ("userId", .string userId), ("isTyping", .bool isTyping)]

/-- The event as a document. -/
def document (event : Event) : Json.Value :=
  .object [("type", .string event.name), ("payload", event.payload)]

/-- The text of the event. -/
def frame (event : Event) : String := event.document.render

end Event

end RoomRelay
