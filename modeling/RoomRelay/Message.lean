import RoomRelay.Json.Shape
import RoomRelay.Json.Value
import RoomRelay.Text.Blank
import RoomRelay.Timestamp

/-!
# Messages

A message belongs to a room and keeps who sent it, a text, its kind, and whatever the sender
attached to it.

## Main definitions

* `MessageKind` — what a message is, with its words
* `MessageDraft`, `MessageDraft.isEmpty` — a message that is yet to be stored
* `Message`, `Message.ofDraft` — a stored message
* `Message.response` — the message as a document
-/

namespace RoomRelay

/-- What a message is. -/
inductive MessageKind
  | text
  | image
  | file
  | video
  deriving DecidableEq, Inhabited

/-- The entry of a table whose word equals the given one when case is ignored. -/
def lookupWord (table : List (String × α)) (word : String) : Option α :=
  (table.find? fun entry => entry.1 = word.toLower).map (·.2)

namespace MessageKind

/-- The words for the kinds. -/
def words : List (String × MessageKind) :=
  [("text", text), ("image", image), ("file", file), ("video", video)]

/-- The word for a kind. -/
def name : MessageKind → String
  | text => "text"
  | image => "image"
  | file => "file"
  | video => "video"

/-- The kind that a word names in any case. -/
def parse (word : String) : Except String MessageKind :=
  match lookupWord words word with
  | some kind => .ok kind
  | none => .error ("Invalid message kind: " ++ word)

/-- The words as they are accepted in a document, in lower case only. -/
def choice : Json.Choice MessageKind := ⟨words⟩

end MessageKind

/-- A message that is yet to be stored. -/
structure MessageDraft where
  /-- The room it is for. -/
  roomId : Uuid
  /-- The identity that sends it. -/
  senderId : String
  /-- The text. -/
  content : String
  /-- What it is. -/
  kind : MessageKind
  /-- What the sender attached. -/
  metadata : Option Json.Value
  deriving DecidableEq

namespace MessageDraft

/-- A plain text. -/
def text (roomId : Uuid) (senderId content : String) : MessageDraft :=
  ⟨roomId, senderId, content, .text, none⟩

/-- The text has no character that can be seen. -/
def isEmpty (draft : MessageDraft) : Bool := Text.isBlank draft.content

end MessageDraft

/-- A stored message. -/
structure Message where
  /-- Its own identifier. -/
  id : Uuid
  /-- The room it belongs to. -/
  roomId : Uuid
  /-- The identity that sent it. -/
  senderId : String
  /-- The text. -/
  content : String
  /-- What it is. -/
  kind : MessageKind
  /-- What the sender attached. -/
  metadata : Option Json.Value
  /-- When it was stored. -/
  createdAt : Timestamp
  /-- When it was last changed. -/
  updatedAt : Timestamp
  deriving DecidableEq

namespace Message

/-- The message stored for a draft under an identifier at a time. -/
def ofDraft (draft : MessageDraft) (id : Uuid) (now : Timestamp) : Message where
  id := id
  roomId := draft.roomId
  senderId := draft.senderId
  content := draft.content
  kind := draft.kind
  metadata := draft.metadata
  createdAt := now
  updatedAt := now

/-- The field for attached data, which is absent if nothing is attached. -/
def metadataField (metadata : Option Json.Value) : List (String × Json.Value) :=
  metadata.toList.map fun value => ("metadata", value)

/-- The fields that a message shows whoever asks. -/
def commonFields (m : Message) : List (String × Json.Value) :=
  [("id", .string m.id.toString), ("roomId", .string m.roomId.toString),
   ("senderId", .string m.senderId), ("content", .string m.content),
   ("kind", .string m.kind.name)] ++ metadataField m.metadata ++
  [("createdAt", .string m.createdAt.render)]

/-- The message as a document. -/
def response (m : Message) : Json.Value :=
  .object (m.commonFields ++ [("updatedAt", .string m.updatedAt.render)])

end Message

end RoomRelay
