import RoomRelay.Json.Tagged
import RoomRelay.Message

/-!
# Commands of a client

A client sends commands as text frames: documents with a `type` and a `payload`. Older clients write
`conversation` where newer ones write `room`.

## Main definitions

* `SendPayload`, `Command` — what a client can ask for
* `Command.name` — the word for a command
* `Command.parse` — the command that a text frame spells
-/

namespace RoomRelay

/-- What a client gives when it sends a message. -/
structure SendPayload where
  /-- The room as the client names it. -/
  roomId : String
  /-- The text. -/
  content : String
  /-- What the message is. -/
  kind : MessageKind
  /-- What is attached. -/
  metadata : Option Json.Value
  deriving DecidableEq

/-- What a client can ask for. Rooms are given as the client names them. -/
inductive Command
  /-- To get the events of a room. -/
  | joinRoom (roomId : String)
  /-- Not to get them any longer. -/
  | leaveRoom (roomId : String)
  /-- To send a message to a room. -/
  | sendMessage (payload : SendPayload)
  /-- To tell a room that the user types or has stopped. -/
  | typing (roomId : String) (isTyping : Bool)
  deriving DecidableEq

namespace Command

/-- The kinds of command. -/
inductive Kind
  | join
  | leave
  | send
  | typing
  deriving DecidableEq

/-- The kind of a command. -/
def kind : Command → Kind
  | joinRoom _ => .join
  | leaveRoom _ => .leave
  | sendMessage _ => .send
  | typing _ _ => .typing

/-- The word for a kind. -/
def Kind.name : Kind → String
  | join => "join_room"
  | leave => "leave_room"
  | send => "send_message"
  | typing => "typing"

/-- The word for a command. -/
def name (command : Command) : String := command.kind.name

/-- The words for the kinds, older spellings included. -/
def words : Json.Choice Kind where
  words :=
    [("join_conversation", .join), ("join_room", .join), ("leave_conversation", .leave),
     ("leave_room", .leave), ("send_message", .send), ("typing", .typing)]

/-- The field that names a room, in a draft. -/
def roomField (get : δ → Option String) (set : String → δ → δ) : Json.Field δ :=
  .of "roomId" ["conversationId"] true .text get set

/-- A payload that only names a room. -/
def roomRecord (make : String → Command) : Json.Record (Option String) Command where
  name := "RoomRef"
  fields := [roomField id fun x _ => some x]
  blank := none
  build draft := make <$> Json.need "roomId" draft

/-- The fields of a message that have been seen. -/
structure SendDraft where
  /-- The room. -/
  roomId : Option String := none
  /-- The text. -/
  content : Option String := none
  /-- What the message is. -/
  kind : Option MessageKind := none
  /-- What is attached. -/
  metadata : Option (Option Json.Value) := none

/-- The payload of a message. -/
def sendRecord : Json.Record SendDraft Command where
  name := "SendMessagePayload"
  fields :=
    [roomField (·.roomId) fun x draft => { draft with roomId := some x },
     .of "content" [] true .text (·.content) fun x draft => { draft with content := some x },
     .of "kind" ["type"] false MessageKind.choice.shape (·.kind) fun x draft =>
       { draft with kind := some x },
     .of "metadata" [] false (.optional .any) (·.metadata) fun x draft =>
       { draft with metadata := some x }]
  blank := {}
  build draft := do
    let roomId ← Json.need "roomId" draft.roomId
    let content ← Json.need "content" draft.content
    return .sendMessage ⟨roomId, content, draft.kind.getD .text, draft.metadata.getD none⟩

/-- The fields of a typing notice that have been seen. -/
structure TypingDraft where
  /-- The room. -/
  roomId : Option String := none
  /-- Whether the user types. -/
  isTyping : Option Bool := none

/-- The payload of a typing notice. -/
def typingRecord : Json.Record TypingDraft Command where
  name := "TypingPayload"
  fields :=
    [roomField (·.roomId) fun x draft => { draft with roomId := some x },
     .of "isTyping" [] false .flag (·.isTyping) fun x draft => { draft with isTyping := some x }]
  blank := {}
  build draft := do
    let roomId ← Json.need "roomId" draft.roomId
    return .typing roomId (draft.isTyping.getD false)

/-- The shape of the payload for each kind. -/
def payload : Kind → Json.Shape Command
  | .join => (roomRecord joinRoom).shape
  | .leave => (roomRecord leaveRoom).shape
  | .send => sendRecord.shape
  | .typing => typingRecord.shape

/-- Commands as tagged values. -/
def frame : Json.Tagged Kind Command where
  form := "adjacently tagged enum ClientCommand"
  tagKey := "type"
  contentKey := "payload"
  choice := words
  shape := payload

/-- The command that a text frame spells. -/
def parse (text : String) : Except Json.Fault Command :=
  Json.parseWith (frame.read Json.depthLimit) text

end Command

end RoomRelay
