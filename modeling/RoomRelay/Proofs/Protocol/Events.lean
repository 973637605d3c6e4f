import RoomRelay.Proofs.Json.RoundTrip
import RoomRelay.Proofs.Text.Identifiers
import RoomRelay.Protocol.Event

/-!
# Events can be read back

The members of a room learn from a frame what has happened. The frame is one document, however it is
taken apart, and whoever reads its fields by their keys gets out of it what was put in: no text can
be mistaken for a part of the frame around it, and attached data that is null is told from no
attached data.

## Main definitions

* `EventFields`, `Event.toFields` — the fields of an event that a client reads
* `EventFields.ofDocument?` — reads a document by its keys
* `Event.keys` — the keys that the payload of an event has
* `Value.skeleton`, `Event.reworded` — a value without its texts, an event with other texts

## Main results

* `Event.ofDocument?_document` — the document of an event tells what has happened
* `Event.frame_tells` — so does the frame, and whatever has the same frame tells the same
-/

namespace RoomRelay

open Json (Value Number IsText parseValue)

/-! ## Documents without their texts -/

namespace Json.Value

mutual

/-- The value with nothing left of its texts; its keys and its nesting stay. -/
def skeleton : Value → Value
  | string _ => string ""
  | array items => array (itemSkeletons items)
  | object fields => object (fieldSkeletons fields)
  | value => value

/-- The items with nothing left of their texts. -/
def itemSkeletons : List Value → List Value
  | [] => []
  | item :: items => skeleton item :: itemSkeletons items

/-- The fields with nothing left of the texts of their values. -/
def fieldSkeletons : List (String × Value) → List (String × Value)
  | [] => []
  | (key, value) :: fields => (key, skeleton value) :: fieldSkeletons fields

end

end Json.Value

/-! ## What an event tells -/

/-- The fields of an event that a client reads. -/
inductive EventFields
  /-- A message has been stored. -/
  | message (id roomId : Uuid) (senderId content : String) (kind : MessageKind)
    (metadata : Option Value)
  /-- A user types or has stopped. -/
  | typing (roomId userId : String) (isTyping : Bool)
  deriving DecidableEq

namespace EventFields

/-- Reads what is told about a message; attached data may be missing. -/
def ofMessage? (payload : Value) : Option EventFields := do
  let id ← ((payload.field? "id").bind Value.string?).bind Uuid.parse?
  let roomId ← ((payload.field? "roomId").bind Value.string?).bind Uuid.parse?
  let senderId ← (payload.field? "senderId").bind Value.string?
  let content ← (payload.field? "content").bind Value.string?
  let kind ← ((payload.field? "kind").bind Value.string?).bind MessageKind.choice.find?
  return .message id roomId senderId content kind (payload.field? "metadata")

/-- Reads what is told about someone who types. -/
def ofTyping? (payload : Value) : Option EventFields := do
  let roomId ← (payload.field? "roomId").bind Value.string?
  let userId ← (payload.field? "userId").bind Value.string?
  let isTyping ← (payload.field? "isTyping").bind Value.bool?
  return .typing roomId userId isTyping

/-- Reads a document by its keys. -/
def ofDocument? (document : Value) : Option EventFields := do
  let name ← (document.field? "type").bind Value.string?
  let payload ← document.field? "payload"
  if name = "new_message" then ofMessage? payload
  else if name = "user_typing" then ofTyping? payload
  else none

end EventFields

namespace Event

/-- The fields of an event that a client reads. -/
def toFields : Event → EventFields
  | newMessage m => .message m.id m.roomId m.senderId m.content m.kind m.metadata
  | userTyping roomId userId isTyping => .typing roomId userId isTyping

/-- The keys that the payload of an event has; the one for attached data only if there are any. -/
def keys : Event → List String
  | newMessage m => ["id", "roomId", "senderId", "content", "kind"] ++
      (if m.metadata.isSome then ["metadata"] else []) ++ ["createdAt"]
  | userTyping _ _ _ => ["roomId", "userId", "isTyping"]

/-- The data that are attached to a message. -/
def attached : Event → Option Value
  | newMessage m => m.metadata
  | userTyping _ _ _ => none

/-- All numbers in the attached data are integers of 64 bits. -/
def Integral (event : Event) : Prop := ∀ v ∈ event.attached, ∀ x ∈ v.numbers, x.IsInteger

/-- The same event about somebody else and with other words. -/
def reworded : Event → (senderId content : String) → Event
  | newMessage m, senderId, content => newMessage { m with senderId, content }
  | userTyping roomId _ isTyping, senderId, _ => userTyping roomId senderId isTyping

variable {event : Event}

/-- All numbers in the document of an event are in the attached data. -/
theorem numbers_document (event : Event) :
    event.document.numbers = (event.attached.map Value.numbers).getD [] := by
  cases event with
  | userTyping => rfl
  | newMessage m =>
    cases hmetadata : m.metadata <;>
      simp [document, payload, attached, Message.commonFields, Message.metadataField, hmetadata,
        Value.numbers, Value.fieldNumbers]

theorem keys_payload (event : Event) :
    ∃ fields, event.payload = .object fields ∧ fields.map (·.1) = event.keys := by
  cases event with
  | userTyping => exact ⟨_, rfl, rfl⟩
  | newMessage m =>
    refine ⟨_, rfl, ?_⟩
    cases hmetadata : m.metadata <;>
      simp [keys, Message.commonFields, Message.metadataField, hmetadata]

/-- A kind is read back from its word. -/
theorem find?_name (kind : MessageKind) : MessageKind.choice.find? kind.name = some kind := by
  cases kind <;> decide

/-- The document of an event tells what has happened. -/
theorem ofDocument?_document (event : Event) :
    EventFields.ofDocument? event.document = some event.toFields := by
  cases event with
  | userTyping => rfl
  | newMessage m =>
    have hfind := find?_name m.kind
    cases hmetadata : m.metadata <;>
      simp [EventFields.ofDocument?, EventFields.ofMessage?, document, payload, name, toFields,
        Message.commonFields, Message.metadataField, hmetadata, Value.field?, Value.fields,
        Value.string?, Uuid.parse?_toString, hfind]

/-- Other words leave the structure of the document as it is. -/
theorem skeleton_reworded (event : Event) (senderId content : String) :
    (event.reworded senderId content).document.skeleton = event.document.skeleton := by
  cases event with
  | userTyping => rfl
  | newMessage m =>
    cases hmetadata : m.metadata <;>
      simp [reworded, document, payload, name, Message.commonFields, Message.metadataField,
        hmetadata, Value.skeleton, Value.fieldSkeletons]

/-- All numbers in the document are integers, too. -/
theorem Integral.document (h : event.Integral) : ∀ x ∈ event.document.numbers, x.IsInteger := by
  rw [numbers_document]
  cases hattached : event.attached with
  | none => simp
  | some v => exact h v hattached

theorem attached_reworded (event : Event) (senderId content : String) :
    (event.reworded senderId content).attached = event.attached := by
  cases event <;> rfl

theorem Integral.reworded (h : event.Integral) (senderId content : String) :
    (event.reworded senderId content).Integral := by
  rw [Integral, attached_reworded]
  exact h

/-- The frame of an event is read back as its document. -/
theorem Integral.parseValue_frame (h : event.Integral) :
    parseValue event.frame = .ok event.document := Value.parseValue_render h.document

/-- The frame of an event is one document, however it is taken apart. It is an object with the name
of the event and a payload that has just the keys of the event, and whoever reads them learns what
has happened. No other event with the same frame tells anything else, and a frame with other texts
in it has the same structure. -/
theorem frame_tells (event : Event) (integral : event.Integral) :
    (∃ tree, IsText event.frame tree) ∧
    (∀ tree, IsText event.frame tree →
      tree.value? Json.Numeral.number? = some event.document) ∧
    (∃ fields : List (String × Value),
      parseValue event.frame =
        .ok (.object [("type", .string event.name), ("payload", .object fields)]) ∧
      fields.map (·.1) = event.keys ∧
      EventFields.ofDocument?
          (.object [("type", .string event.name), ("payload", .object fields)]) =
        some event.toFields) ∧
    (∀ other : Event, other.Integral → other.frame = event.frame →
      other.toFields = event.toFields) ∧
    ∀ senderId content, ∃ document,
      parseValue (event.reworded senderId content).frame = .ok document ∧
      EventFields.ofDocument? document = some (event.reworded senderId content).toFields ∧
      document.skeleton = event.document.skeleton := by
  refine ⟨?_, fun tree htext => ?_, ?_, fun other hother hframe => ?_, fun senderId content => ?_⟩
  · obtain ⟨tree, htree⟩ := event.document.exists_tree integral.document
    exact ⟨tree, Value.isText_render htree⟩
  · exact Value.value?_of_isText_render integral.document htext
  · obtain ⟨fields, hpayload, hkeys⟩ := event.keys_payload
    have hdocument : event.document =
        .object [("type", .string event.name), ("payload", .object fields)] := by
      rw [document, hpayload]
    refine ⟨fields, ?_, hkeys, ?_⟩
    · rw [← hdocument]
      exact integral.parseValue_frame
    · rw [← hdocument]
      exact event.ofDocument?_document
  · have hparse := hother.parseValue_frame
    rw [hframe, integral.parseValue_frame] at hparse
    have hfields := other.ofDocument?_document
    rw [← Except.ok.inj hparse, event.ofDocument?_document] at hfields
    exact (Option.some.inj hfields).symm
  · exact ⟨_, (integral.reworded senderId content).parseValue_frame, ofDocument?_document _,
      event.skeleton_reworded senderId content⟩

/-- A message whose texts look like parts of a frame, with data attached to it. -/
def forger : Message :=
  .ofDraft ⟨.nil, "\\\"\x7d", "\",\"kind\":\"file\",\"metadata\":null\x7d\x00", .text,
    some (.object [("type", .array [.number (.int (-9223372036854775808)), .null, .object []])])⟩
    (.version4 7) ⟨0, 0⟩

/-- The texts stay where they are, and without the data, or with null for them, the frame would be
another one. -/
theorem frame_tells_of_forger :
    (∃ document, parseValue (newMessage forger).frame = .ok document ∧
      EventFields.ofDocument? document = some (newMessage forger).toFields) ∧
    (newMessage { forger with metadata := none }).frame ≠
      (newMessage { forger with metadata := some .null }).frame := by
  have hforger : (newMessage forger).Integral := by
    rintro _ ⟨⟩ x hx
    obtain rfl : x = .int (-9223372036854775808) := by
      simpa [Value.numbers, Value.itemNumbers, Value.fieldNumbers] using hx
    exact ⟨_, rfl, by decide, by decide⟩
  have hnull : (newMessage { forger with metadata := some .null }).Integral := by
    rintro _ ⟨⟩ x hx
    exact absurd hx (by simp [Value.numbers])
  have hnone : (newMessage { forger with metadata := none }).Integral := by
    rintro _ ⟨⟩
  constructor
  · obtain ⟨-, -, ⟨fields, hparse, -, hfields⟩, -⟩ := frame_tells (newMessage forger) hforger
    exact ⟨_, hparse, hfields⟩
  · intro hframe
    have hfields := (frame_tells _ hnull).2.2.2.1 _ hnone hframe
    exact absurd hfields (by simp [toFields])

end Event

end RoomRelay
