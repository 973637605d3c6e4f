import RoomRelay.Json.Shape

/-!
# Records

A record is made from an object, whose keys may be spelt in several ways, stand in any order and be
joined by unknown ones, or from an array of the fields in their order. Fields are collected in a
*draft*, which the record is built from once the last one has been seen.

## Main definitions

* `Json.Field`, `Json.Field.of` — a field of a draft
* `Json.Record` — fields and what is built from a draft
* `Json.Record.shape` — the shape of a record
-/

namespace RoomRelay.Json

/-- A field of a draft `δ`. -/
structure Field (δ : Type) where
  /-- The name used in messages. -/
  name : String
  /-- Other spellings of the key. -/
  aliases : List String
  /-- Whether an array must reach up to this field. -/
  required : Bool
  /-- Whether the draft has the field already. -/
  given : δ → Bool
  /-- Reads the field into a draft. -/
  read : (depth : Nat) → δ → Reader δ
  /-- Decodes the field into a draft. -/
  decode : Value → δ → Except Fault δ

namespace Field

/-- The field whose place in a draft is given by `get` and `set`. -/
def of (name : String) (aliases : List String) (required : Bool) (shape : Shape α)
    (get : δ → Option α) (set : α → δ → δ) : Field δ where
  name := name
  aliases := aliases
  required := required
  given draft := (get draft).isSome
  read depth draft := do return set (← shape.read depth) draft
  decode v draft := do return set (← shape.decode v) draft

/-- Whether a key names the field. -/
def isNamed (field : Field δ) (key : String) : Bool := key = field.name || key ∈ field.aliases

end Field

/-- A record: its fields, an empty draft, and what is built from a draft. -/
structure Record (δ α : Type) where
  /-- The name used in messages. -/
  name : String
  /-- The fields in order. -/
  fields : List (Field δ)
  /-- The draft without fields. -/
  blank : δ
  /-- Reports the first missing field or builds the record. -/
  build : δ → Except Fault α

/-- The value of a field that must be there. -/
def need (name : String) : Option α → Except Fault α
  | some x => .ok x
  | none => refuse (.missingField name)

/-- A number of elements in words. -/
def elements (n : Nat) : String := toString n ++ if n = 1 then " element" else " elements"

namespace Record

variable {δ α : Type}

/-- The form that messages ask for. -/
def form (r : Record δ α) : String := "struct " ++ r.name

/-- The form that messages ask for when an array is too short. -/
def arrayForm (r : Record δ α) : String := r.form ++ " with " ++ elements r.fields.length

/-- The field that a key names. -/
def field? (r : Record δ α) (key : String) : Option (Field δ) := r.fields.find? (·.isNamed key)

/-- Reads the field of a key that has just been read; unknown ones are skipped. -/
def readMember (r : Record δ α) (depth : Nat) (key : String) (draft : δ) : Reader δ :=
  match r.field? key with
  | some field =>
    if field.given draft then fail (.duplicateField field.name)
    else within (.key key) (colon *> field.read depth draft)
  | none => do
    within (.key key) (colon *> skipValue)
    return draft

/-- Reads fields up to the closing brace, which stays. Each turn takes a symbol, so the length of
the input bounds the number of turns. -/
def readMembers (r : Record δ α) (depth : Nat) : (turns : Nat) → (first : Bool) → δ → Reader δ
  | 0, _, _ => fail .endInObject
  | turns + 1, first, draft => do
    match ← within .unnamed (nextKey first) with
    | some key => r.readMembers depth turns false (← r.readMember depth key draft)
    | none => return draft

/-- Reads fields in their order up to the last one, or up to the closing bracket. -/
def readItems (r : Record δ α) (depth : Nat) : (index : Nat) → List (Field δ) → δ → Reader δ
  | _, [], draft => return draft
  | index, field :: rest, draft => do
    if ← nextItem (index == 0) then
      r.readItems depth (index + 1) rest (← within (.index index) (field.read depth draft))
    else if field.required then fail (.wrongLength index r.arrayForm)
    else r.readItems depth (index + 1) rest draft

/-- Reads a record. -/
def read (r : Record δ α) (depth : Nat) : Reader α := do
  match ← blanks with
  | some (some '\x7b') =>
    match depth with
    | 0 => fail .tooDeep
    | inner + 1 =>
      advance
      let draft ← r.readMembers inner ((← get).length + 1) true r.blank
      let result ← liftM (r.build draft)
      closeObject
      return result
  | some (some '[') =>
    match depth with
    | 0 => fail .tooDeep
    | inner + 1 =>
      advance
      let draft ← r.readItems inner 0 r.fields r.blank
      let result ← liftM (r.build draft)
      closeList
      return result
  | _ => wanted r.form

/-- Decodes the fields of an object in the order in which they stand. -/
def decodeMembers (r : Record δ α) : List (String × Value) → δ → Except Fault δ
  | [], draft => .ok draft
  | (key, v) :: rest, draft =>
    match r.field? key with
    | some field => do
      if field.given draft then refuse (.duplicateField field.name)
      else r.decodeMembers rest (← field.decode v draft)
    | none => r.decodeMembers rest draft

/-- Decodes the items of an array as the fields in their order. -/
def decodeItems (r : Record δ α) : (index : Nat) → List (Field δ) → List Value → δ → Except Fault δ
  | _, [], _, draft => .ok draft
  | index, field :: rest, v :: vs, draft => do
    r.decodeItems (index + 1) rest vs (← field.decode v draft)
  | index, field :: rest, [], draft =>
    if field.required then refuse (.wrongLength index r.arrayForm)
    else r.decodeItems (index + 1) rest [] draft

/-- Decodes a record. -/
def decode (r : Record δ α) : Value → Except Fault α
  | .object fields => do r.build (← r.decodeMembers fields r.blank)
  | .array xs => do
    let result ← r.build (← r.decodeItems 0 r.fields xs r.blank)
    let count := r.fields.length
    if count < xs.length then
      refuse (.wrongLength xs.length (elements count ++ " in sequence"))
    else return result
  | other => refuse (.wrongForm other.found r.form)

/-- The shape of a record. -/
def shape (r : Record δ α) : Shape α := ⟨r.read, r.decode⟩

end Record

end RoomRelay.Json
