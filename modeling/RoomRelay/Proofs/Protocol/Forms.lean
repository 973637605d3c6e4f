import RoomRelay.Proofs.Json.Forms
import RoomRelay.Proofs.Protocol.Commands

/-!
# The forms of a command

A client may put the type of a command in front of the payload or behind it, or send both in an
array. If the payload stands last it is read as it stands; if it stands first, it is kept as a value
and decoded once the type is known. Reading and decoding are two programs, which treat arrays,
numbers, `null` and the kind of a message each in its own way. Still they come to the same result on
every payload, sound or not, up to two exceptions. A field that no record knows is skipped, and
skipping lets texts pass that are not kept. And the kind of a message, if it is an object that maps
a word to an empty object, is decoded though it would not be read.

## Main definitions

* `Command.forms` — the three forms of a type and a payload
* `Command.KnownKeys` — if the payload is an object, its keys name fields
* `Command.KindText` — the texts in a payload that stand for the kind of a message

## Main results

* `Command.payload_defers` — a payload is read as it is decoded
* `Command.parse_forms` — the three forms are read as the same command, or all are rejected
-/

namespace RoomRelay.Command

open Json
open Tagged (quote)

variable {kind : Kind} {word : String} {outline : Outline}

/-! ### Texts -/

/-- The text with the type in front of the payload. -/
def typeFirst (word payload : String) : String :=
  "\x7b\"type\":\"" ++ word ++ "\",\"payload\":" ++ payload ++ "\x7d"

/-- The text with the payload in front of the type. -/
def payloadFirst (word payload : String) : String :=
  "\x7b\"payload\":" ++ payload ++ ",\"type\":\"" ++ word ++ "\"\x7d"

/-- The text with the type and the payload in an array. -/
def pair (word payload : String) : String := "[\"" ++ word ++ "\"," ++ payload ++ "]"

/-- The three forms of a type and a payload. -/
def forms (word payload : String) : List String :=
  [typeFirst word payload, payloadFirst word payload, pair word payload]

/-- If the payload is an object, each of its keys names a field. -/
def KnownKeys (kind : Kind) : Outline → Prop
  | .object fields => ∀ field ∈ fields, ∃ key ∈ kind.fieldKeys.flatten, Quoted key field.1
  | _ => True

/-- The texts in a payload that stand for the kind of a message. -/
inductive KindText : Kind → Outline → List Char → Prop
  | field {kind : Kind} {fields : List (List Char × List Char)} {key : String}
      {name text : List Char} : key ∈ kindKeys → Quoted key name → (name, text) ∈ fields →
      KindText kind (.object fields) text
  | item {items : List (List Char)} {text : List Char} :
      items[2]? = some text → KindText .send (.array items) text

/-- The words for commands and the keys around them need no escapes. -/
theorem isPlain_of_mem_spellings (hword : word ∈ spellings kind) : frame.IsPlain word kind where
  tagKey := quoted_of_all (by decide)
  contentKey := quoted_of_all (by decide)
  keys := by decide
  quoted := quoted_of_all (by revert hword; cases kind <;> revert word <;> decide)
  find? := find?_word hword

/-! ### Payloads -/

section Records

variable {cs : List Char} {depth : Nat}

theorem roomRecord_defers (make : String → Command) (h : Written outline cs)
    (hkeys : KnownKeys .join outline) : (roomRecord make).Defers depth outline := by
  cases outline with
  | scalar => trivial
  | array items =>
    refine Record.defers_of_items _ h fun index field item hfield _ _ hitem => ?_
    match index, hfield with
    | 0, rfl => exact Field.defers_of (hitem.defers_text depth)
  | object fields =>
    refine Record.defers_of_entries _ h hkeys fun key hkey entry _ _ _ hvalue => ?_
    obtain rfl | rfl : key = "roomId" ∨ key = "conversationId" := by
      simpa [Kind.fieldKeys, roomKeys] using hkey
    all_goals exact ⟨_, rfl, Field.defers_of (hvalue.defers_text depth)⟩

theorem typingRecord_defers (h : Written outline cs) (hkeys : KnownKeys .typing outline) :
    typingRecord.Defers depth outline := by
  cases outline with
  | scalar => trivial
  | array items =>
    refine Record.defers_of_items _ h fun index field item hfield _ _ hitem => ?_
    match index, hfield with
    | 0, rfl => exact Field.defers_of (hitem.defers_text depth)
    | 1, rfl => exact Field.defers_of (hitem.defers_flag depth)
  | object fields =>
    refine Record.defers_of_entries _ h hkeys fun key hkey entry _ _ _ hvalue => ?_
    obtain (rfl | rfl) | rfl : (key = "roomId" ∨ key = "conversationId") ∨ key = "isTyping" := by
      simpa [Kind.fieldKeys, roomKeys, or_assoc] using hkey
    · exact ⟨_, rfl, Field.defers_of (hvalue.defers_text depth)⟩
    · exact ⟨_, rfl, Field.defers_of (hvalue.defers_text depth)⟩
    · exact ⟨_, rfl, Field.defers_of (hvalue.defers_flag depth)⟩

theorem sendRecord_defers (h : Written outline cs) (hkeys : KnownKeys .send outline)
    (hkind : ∀ text, KindText .send outline text → ¬ IsEmptyEntry text) :
    sendRecord.Defers depth outline := by
  cases outline with
  | scalar => trivial
  | array items =>
    refine Record.defers_of_items _ h fun index field item hfield hmem _ hitem => ?_
    match index, hfield with
    | 0, rfl | 1, rfl => exact Field.defers_of (hitem.defers_text depth)
    | 2, rfl => exact Field.defers_of (hitem.defers_choice depth _ (hkind item (.item hmem)))
    | 3, rfl => exact Field.defers_of (hitem.defers_optional_any depth)
  | object fields =>
    refine Record.defers_of_entries _ h hkeys fun key hkey entry hentry hquoted _ hvalue => ?_
    -- Under either of its keys, the kind of the message is no empty entry.
    have hchoice (hkey : key ∈ kindKeys) : MessageKind.choice.shape.Defers depth entry.2 :=
      hvalue.defers_choice depth _ (hkind _ (.field hkey hquoted hentry))
    obtain (rfl | rfl) | rfl | (rfl | rfl) | rfl :
        (key = "roomId" ∨ key = "conversationId") ∨ key = "content" ∨
          (key = "kind" ∨ key = "type") ∨ key = "metadata" := by
      simpa [Kind.fieldKeys, roomKeys, kindKeys, or_assoc] using hkey
    · exact ⟨_, rfl, Field.defers_of (hvalue.defers_text depth)⟩
    · exact ⟨_, rfl, Field.defers_of (hvalue.defers_text depth)⟩
    · exact ⟨_, rfl, Field.defers_of (hvalue.defers_text depth)⟩
    · exact ⟨_, rfl, Field.defers_of (hchoice (by decide))⟩
    · exact ⟨_, rfl, Field.defers_of (hchoice (by decide))⟩
    · exact ⟨_, rfl, Field.defers_of (hvalue.defers_optional_any depth)⟩

/-- What is read of a payload is what is decoded from the value that is kept of it. -/
theorem payload_defers (h : Written outline cs) (hkeys : KnownKeys kind outline)
    (hkind : ∀ text, KindText kind outline text → ¬ IsEmptyEntry text) (depth : Nat) :
    (payload kind).Defers (depth + 1) cs := by
  cases kind with
  | join => exact Record.defers _ h (roomRecord_defers _ h hkeys)
  | leave => exact Record.defers _ h (roomRecord_defers _ h hkeys)
  | send => exact Record.defers _ h (sendRecord_defers h hkeys hkind)
  | typing => exact Record.defers _ h (typingRecord_defers h hkeys)

end Records

/-! ### Forms -/

/-- The three forms come to one result. -/
theorem toOption_parse_forms (hword : word ∈ spellings kind) {payload : String}
    (hpayload : IsValueText payload outline) (hkeys : KnownKeys kind outline)
    (hkind : ∀ text, KindText kind outline text → ¬ IsEmptyEntry text) :
    ∃ result : Option Command, ∀ text ∈ forms word payload, (parse text).toOption = result := by
  obtain ⟨b, cs, b', hb, hcs, hb', heq⟩ := hpayload
  -- Of the 127 arrays and objects that may be open, the frame and the payload take one each.
  have hdefers := payload_defers hcs hkeys hkind 125
  obtain ⟨result, hforms⟩ := (isPlain_of_mem_spellings hword).run?_forms hb hb' hcs hdefers
  refine ⟨result, ?_⟩
  simp only [forms, List.mem_cons, List.not_mem_nil, or_false, forall_eq_or_imp, forall_eq]
    at hforms ⊢
  obtain ⟨htype, hpayload, hpair⟩ := hforms
  rw [← heq] at htype hpayload hpair
  refine ⟨toOption_parseWith_of_run? ?_ htype, toOption_parseWith_of_run? ?_ hpayload,
    toOption_parseWith_of_run? ?_ hpair⟩
  · simp [typeFirst, Tagged.tagFirst, frame, Tagged.quote]
  · simp [payloadFirst, Tagged.contentFirst, frame, Tagged.quote]
  · simp [pair, Tagged.pair, Tagged.quote]

/-- **Three forms.** Let the payload be the text of any value, sound or not. If it is an object, let
its keys name fields; and let the kind of a message not be an object that maps a word to an empty
object. Then the three forms are all read as the same command, or all are rejected. -/
theorem parse_forms (hword : word ∈ spellings kind) {payload : String}
    (hpayload : IsValueText payload outline) (hkeys : KnownKeys kind outline)
    (hkind : ∀ text, KindText kind outline text → ¬ IsEmptyEntry text) :
    (∃ command, ∀ text ∈ forms word payload, parse text = .ok command) ∨
      ∀ text ∈ forms word payload, ∃ fault, parse text = .error fault := by
  obtain ⟨result, hforms⟩ := toOption_parse_forms hword hpayload hkeys hkind
  cases result with
  | none => exact .inr fun text htext => error_of_toOption (hforms text htext)
  | some command => exact .inl ⟨command, fun text htext => ok_of_toOption (hforms text htext)⟩

/-- The payload of a picture, with the older key of the room. -/
def picture : String := "\x7b\"conversationId\":\"r\",\"content\":\"c\",\"type\":\"image\"\x7d"

/-- Its fields as they are written. -/
def pictureFields : List (List Char × List Char) :=
  [(quote "conversationId", quote "r"), (quote "content", quote "c"), (quote "type", quote "image")]

/-- All three forms ask for the picture. -/
theorem parse_forms_picture :
    (forms "send_message" picture).map parse =
      List.replicate 3 (.ok (.sendMessage ⟨"r", "c", .image, none⟩)) := by
  have hnil := blanks_nil
  have hroom : Quoted "conversationId" (quote "conversationId") := quoted_plain (by simp)
  have hcontent : Quoted "content" (quote "content") := quoted_plain (by simp)
  have htype : Quoted "type" (quote "type") := quoted_plain (by simp)
  have hr : IsString (quote "r") := (quoted_plain (by simp)).isString
  have hc : IsString (quote "c") := (quoted_plain (by simp)).isString
  have himage : IsString (quote "image") := (quoted_plain (by simp)).isString
  have hfields : FieldTexts true pictureFields _ :=
    .cons (.first hnil) hnil hnil <| .cons (.next hnil hnil) hnil hnil <|
      .cons (.next hnil hnil) hnil hnil (.nil hnil)
  have hobject := @Written.object _ (fun _ => .scalar) _
    (by simpa [pictureFields] using ⟨hroom.isString, hcontent.isString, htype.isString⟩)
    (by simpa [pictureFields] using ⟨.string hr, .string hc, .string himage⟩) hfields
  have hpayload : IsValueText picture (.object pictureFields) :=
    ⟨[], _, [], hnil, hobject, hnil, by simp [picture, quote]⟩
  have hkeys : KnownKeys .send (.object pictureFields) := by
    intro field hfield
    obtain rfl | rfl | rfl := by simpa [pictureFields] using hfield
    exacts [⟨_, by decide, hroom⟩, ⟨_, by decide, hcontent⟩, ⟨_, by decide, htype⟩]
  have hkind : ∀ text, KindText .send (.object pictureFields) text → ¬ IsEmptyEntry text := by
    rintro text (⟨-, -, hmem⟩)
    obtain ⟨-, rfl⟩ | ⟨-, rfl⟩ | ⟨-, rfl⟩ := by simpa [pictureFields] using hmem
    exacts [hr.not_isEmptyEntry, hc.not_isEmptyEntry, himage.not_isEmptyEntry]
  have hword : "send_message" ∈ spellings .send := by decide
  -- One form is read as this command, so the two others are.
  have hfirst : parse (typeFirst "send_message" picture) =
      .ok (.sendMessage ⟨"r", "c", .image, none⟩) :=
    ok_of_toOption (by decide +kernel)
  obtain ⟨command, hall⟩ | hnone := parse_forms hword hpayload hkeys hkind
  · obtain rfl := Except.ok.inj ((hall _ List.mem_cons_self).symm.trans hfirst)
    exact List.map_eq_replicate_iff.mpr hall
  · obtain ⟨fault, hfault⟩ := hnone _ List.mem_cons_self
    exact absurd (hfault.symm.trans hfirst) (by simp)

/-- The exception is needed: in an array, a kind that maps a word to an empty object is decoded
where the payload stands first, and is not read where it stands last. -/
theorem parse_forms_empty_entry :
    "send_message" ∈ spellings .send ∧
      (∃ items, IsValueText "[\"r\",\"c\",\x7b\"text\":\x7b\x7d\x7d]" (.array items)) ∧
      parse (payloadFirst "send_message" "[\"r\",\"c\",\x7b\"text\":\x7b\x7d\x7d]") =
        .ok (.sendMessage ⟨"r", "c", .text, none⟩) ∧
      (∃ fault, parse (typeFirst "send_message"
        "[\"r\",\"c\",\x7b\"text\":\x7b\x7d\x7d]") = .error fault) ∧
      ∃ fault, parse (pair "send_message"
        "[\"r\",\"c\",\x7b\"text\":\x7b\x7d\x7d]") = .error fault := by
  have hnil := blanks_nil
  have hr : IsString (quote "r") := (quoted_plain (by simp)).isString
  have hc : IsString (quote "c") := (quoted_plain (by simp)).isString
  have htext : IsString (quote "text") := (quoted_plain (by simp)).isString
  have hempty : Written (.object []) ['\x7b', '\x7d'] :=
    @Written.object _ (fun _ => .scalar) _ (by simp) (by simp) (.nil hnil)
  have hentry : Written (.object [(quote "text", ['\x7b', '\x7d'])])
      ('\x7b' :: (quote "text" ++ [':', '\x7b', '\x7d', '\x7d'])) :=
    @Written.object _ (fun _ => .object []) _ (by simpa using htext) (by simpa using hempty)
      (.cons (.first hnil) hnil hnil (.nil hnil))
  have harray : Written (.array [quote "r", quote "c",
      '\x7b' :: (quote "text" ++ [':', '\x7b', '\x7d', '\x7d'])]) _ :=
    @Written.array _ (fun item =>
        if item.head? = some '"' then .scalar else .object [(quote "text", ['\x7b', '\x7d'])]) _
      (by simpa [quote] using ⟨Written.string hr, Written.string hc, hentry⟩)
      (.cons (.first hnil) <| .cons (.next hnil hnil) <| .cons (.next hnil hnil) <| .nil hnil)
  exact ⟨by decide, ⟨_, [], _, [], hnil, harray, hnil, by simp [quote]⟩,
    ok_of_toOption (by decide +kernel), error_of_toOption (by decide +kernel),
    error_of_toOption (by decide +kernel)⟩

end RoomRelay.Command
