import RoomRelay.Json.Parser

/-!
# Shapes: what form of value is wanted

A shape says how a wanted value is made from a text, and how it is made from a value that was read
before anyone knew what it was for. The two agree on what they accept, but not always on what they
report.

## Main definitions

* `Json.Shape` — the two ways to make a value
* `Json.Shape.text`, `Json.Shape.flag`, `Json.Shape.uuid`, `Json.Shape.any`, `Json.Shape.optional`,
  `Json.Shape.listOf` — the shapes of fields
* `Json.Choice`, `Json.Choice.shape` — one of several words
-/

namespace RoomRelay.Json

/-- The description of a value where another form was wanted. -/
def Value.found : Value → Found
  | null => .null
  | bool b => .boolean b
  | number (.int n) => .integer n
  | number (.float x) => .float x
  | string text => .text text
  | array _ => .sequence
  | object _ => .map

/-- How a wanted value is made. -/
structure Shape (α : Type) where
  /-- From a text, with at most `depth` arrays and objects open. -/
  read : (depth : Nat) → Reader α
  /-- From a value that was read before. -/
  decode : Value → Except Fault α

/-- Reports a fault. -/
def refuse {α : Type} (cause : Cause) : Except Fault α := .error ⟨cause, []⟩

namespace Shape

/-- A string. -/
def text : Shape String where
  read _ := do
    match ← blanks with
    | some (some '"') =>
      advance
      string
    | _ => wanted "a string"
  decode
    | .string s => .ok s
    | other => refuse (.wrongForm other.found "a string")

/-- A truth value. -/
def flag : Shape Bool where
  read _ := do
    match ← blanks with
    | some (some 't') => word "true".toList *> pure true
    | some (some 'f') => word "false".toList *> pure false
    | _ => wanted "a boolean"
  decode
    | .bool b => .ok b
    | other => refuse (.wrongForm other.found "a boolean")

/-- The integer that was found, if it has at most 64 bits with the sign. -/
def ofInteger (found : Found) : Except Fault Int :=
  match found with
  | .integer n =>
    if n ≤ Bits.greatestSigned64 then .ok n else refuse (.wrongValue (.integer n) "i64")
  | other => refuse (.wrongForm other "i64")

/-- An integer of 64 bits with a sign. -/
def integer : Shape Int where
  read _ := do liftM (ofInteger (← scalar))
  decode v := ofInteger v.found

/-- The identifier that a text spells. -/
def parseUuid (s : String) : Except Fault Uuid :=
  match Uuid.parse s with
  | .ok id => .ok id
  | .error fault => refuse (.badUuid fault)

/-- A string that spells an identifier. -/
def uuid : Shape Uuid where
  read _ := do
    match ← blanks with
    | some (some '"') =>
      advance
      liftM (parseUuid (← string))
    | _ => wanted "a formatted UUID string"
  decode
    | .string s => parseUuid s
    | other => refuse (.wrongForm other.found "a formatted UUID string")

/-- Any value, kept in canonical form. -/
def any : Shape Value where
  read depth := Value.canonical <$> value depth
  decode v := .ok v.canonical

/-- A value of one shape, of which nothing is kept. -/
def discarded (shape : Shape α) : Shape Unit where
  read depth := discard (shape.read depth)
  decode v := discard (shape.decode v)

/-- A value that passes a test. -/
def checked (test : Value → Bool) (cause : Cause) : Shape Value where
  read depth := do
    let v ← value depth
    if test v then return v.canonical else fail cause
  decode v := if test v then .ok v.canonical else refuse cause

/-- A value or `null`, which counts as no value. -/
def optional (shape : Shape α) : Shape (Option α) where
  read depth := do
    match ← blanks with
    | some (some 'n') => word "null".toList *> pure none
    | _ => some <$> shape.read depth
  decode
    | .null => .ok none
    | other => some <$> shape.decode other

/-- An array of values of one shape. -/
def listOf (shape : Shape α) : Shape (List α) where
  read depth := do
    match ← blanks with
    | some (some '[') =>
      match depth with
      | 0 => fail .tooDeep
      | inner + 1 =>
        advance
        items (shape.read inner) ((← get).length + 1) []
    | _ => wanted "a sequence"
  decode
    | .array xs => xs.mapM shape.decode
    | other => refuse (.wrongForm other.found "a sequence")

end Shape

/-- One of several words, each of which stands for something. -/
structure Choice (α : Type) where
  /-- The words in the order in which a message lists them. -/
  words : List (String × α)

namespace Choice

/-- What a word stands for. -/
def find? (choice : Choice α) (word : String) : Option α :=
  (choice.words.find? fun entry => entry.1 = word).map (·.2)

/-- What a word stands for, or a fault that lists the words. -/
def find (choice : Choice α) (word : String) : Except Fault α :=
  match choice.find? word with
  | some x => .ok x
  | none => refuse (.unknownChoice word (choice.words.map (·.1)))

/-- A word that must be a string. -/
def identifier : Reader String := do
  match ← blanks with
  | some (some '"') =>
    advance
    string
  | _ => wanted "variant identifier"

/-- The `null` that belongs to a word spelt as an object. -/
def unit : Reader Unit := do
  match ← blanks with
  | some (some 'n') => word "null".toList
  | _ => wanted "unit"

/-- A word, given as a string or as an object that maps it to `null`. -/
def read (choice : Choice α) (depth : Nat) : Reader α := do
  match ← blanks with
  | none => fail .endInValue
  | some (some '"') =>
    advance
    liftM (choice.find (← string))
  | some (some '\x7b') =>
    if depth = 0 then fail .tooDeep
    else
      advance
      let name ← identifier
      let x ← liftM (choice.find name)
      colon
      within (.choice name) unit
      match ← blanks with
      | none => fail .endInObject
      | some (some '\x7d') =>
        advance
        return x
      | some _ => fail .noValue
  | some _ => fail .noValue

/-- What belongs to a word in a value read before: `null`, or an object without fields. -/
def decodeUnit : Value → Except Fault Unit
  | .null => .ok ()
  | .object [] => .ok ()
  | other => refuse (.wrongForm other.found "unit")

/-- A word in a value read before. -/
def decode (choice : Choice α) : Value → Except Fault α
  | .string word => choice.find word
  | .object [(name, inner)] => do
    let x ← choice.find name
    decodeUnit inner
    return x
  | .object _ => refuse (.wrongValue .map "map with a single key")
  | other => refuse (.wrongForm other.found "string or map")

/-- The shape of one of several words. -/
def shape (choice : Choice α) : Shape α := ⟨choice.read, choice.decode⟩

end Choice

end RoomRelay.Json
