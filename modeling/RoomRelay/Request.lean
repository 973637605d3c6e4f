import RoomRelay.Failure
import RoomRelay.Json.Record
import RoomRelay.Room

/-!
# What a client asks the services for

Requests to make a room and to send a message are documents whose texts must keep within limits.
The limits are looked at only after the whole document has been read.

## Main definitions

* `CreateRoom`, `SendMessage` — the requests
* `CreateRoom.record`, `SendMessage.record` — how they are made from documents
* `CreateRoom.check`, `SendMessage.check` — the limits
-/

namespace RoomRelay

/-- The greatest length of a message, in characters. -/
def maxContentLength : Nat := 4000

/-- The greatest length of a room name, in characters. -/
def maxNameLength : Nat := 255

/-- A request to make a room. -/
structure CreateRoom where
  /-- The name. -/
  name : String
  /-- Whom the room is for. -/
  kind : RoomKind
  /-- Members beside the one who makes it. -/
  memberIds : List String
  deriving DecidableEq

namespace CreateRoom

/-- The fields that have been seen. -/
structure Draft where
  /-- The name. -/
  name : Option String := none
  /-- Whom the room is for. -/
  kind : Option RoomKind := none
  /-- The members. -/
  memberIds : Option (List String) := none

/-- How the request is made from a document. -/
def record : Json.Record Draft CreateRoom where
  name := "CreateRoomRequest"
  fields :=
    [.of "name" [] true .text (·.name) fun x draft => { draft with name := some x },
     .of "kind" ["type"] true RoomKind.choice.shape (·.kind) fun x draft =>
       { draft with kind := some x },
     .of "memberIds" [] true (.listOf .text) (·.memberIds) fun x draft =>
       { draft with memberIds := some x }]
  blank := {}
  build draft := do
    let name ← Json.need "name" draft.name
    let kind ← Json.need "kind" draft.kind
    let memberIds ← Json.need "memberIds" draft.memberIds
    return ⟨name, kind, memberIds⟩

/-- A room name has between one and 255 characters. -/
def check (request : CreateRoom) : Except LengthFault Unit :=
  if 1 ≤ request.name.length ∧ request.name.length ≤ maxNameLength then .ok ()
  else .error ⟨"name", "Room name must be 1-255 characters", some 1, maxNameLength, request.name⟩

end CreateRoom

/-- A request to send a message. -/
structure SendMessage where
  /-- The room. -/
  roomId : Uuid
  /-- The text. -/
  content : String
  /-- What the message is. -/
  kind : MessageKind
  /-- What is attached. -/
  metadata : Option Json.Value
  deriving DecidableEq

namespace SendMessage

/-- The fields that have been seen. -/
structure Draft where
  /-- The room. -/
  roomId : Option Uuid := none
  /-- The text. -/
  content : Option String := none
  /-- What the message is. -/
  kind : Option MessageKind := none
  /-- What is attached. -/
  metadata : Option (Option Json.Value) := none

/-- How the request is made from a document. -/
def record : Json.Record Draft SendMessage where
  name := "SendMessageRequest"
  fields :=
    [.of "roomId" ["conversationId"] true .uuid (·.roomId) fun x draft =>
       { draft with roomId := some x },
     .of "content" [] true .text (·.content) fun x draft => { draft with content := some x },
     .of "kind" ["type"] false MessageKind.choice.shape (·.kind) fun x draft =>
       { draft with kind := some x },
     .of "metadata" [] false (.optional .any) (·.metadata) fun x draft =>
       { draft with metadata := some x }]
  blank := {}
  build draft := do
    let roomId ← Json.need "roomId" draft.roomId
    let content ← Json.need "content" draft.content
    return ⟨roomId, content, draft.kind.getD .text, draft.metadata.getD none⟩

/-- A message has at most 4000 characters. -/
def check (request : SendMessage) : Except LengthFault Unit :=
  if request.content.length ≤ maxContentLength then .ok ()
  else .error ⟨"content", "Message content must be at most 4000 characters", none,
    maxContentLength, request.content⟩

/-- The message that is asked for. -/
def draft (request : SendMessage) (senderId : String) : MessageDraft :=
  ⟨request.roomId, senderId, request.content, request.kind, request.metadata⟩

end SendMessage

end RoomRelay
