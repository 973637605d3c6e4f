import RoomRelay.Json.Fault
import RoomRelay.Text.Utf8

/-!
# Reading a document text symbol by symbol

The tokens of a document: blanks, words, strings, and the punctuation of arrays and objects. Each
reader takes what it wants from the front of the input and leaves the rest, or reports the first
fault.

## Main definitions

* `Json.Reader` — a reader
* `Json.blanks`, `Json.word` — blanks and the words `null`, `true` and `false`
* `Json.string`, `Json.skipString` — strings after their opening mark, kept and skipped
* `Json.nextItem`, `Json.nextKey`, `Json.colon`, `Json.closeList`, `Json.closeObject` — the
  punctuation of arrays and objects
-/

namespace RoomRelay.Json

/-- Takes something from the front of the input or reports a fault. -/
abbrev Reader (α : Type) := StateT Input (Except Fault) α

/-- Reports a fault at this place. -/
def fail {α : Type} (cause : Cause) : Reader α := throw ⟨cause, []⟩

/-- Says that whatever fails in the reader lies one step inside. -/
def within {α : Type} (step : Step) (reader : Reader α) : Reader α := fun input =>
  match reader input with
  | .ok result => .ok result
  | .error fault => .error (fault.under step)

/-- The next symbol, which stays where it is. -/
def peek : Reader (Option Symbol) := fun input => .ok (input.head?, input)

/-- Drops the next symbol. -/
def advance : Reader Unit := fun input => .ok ((), input.drop 1)

/-- A blank between tokens. -/
def isBlankSymbol : Symbol → Bool
  | some c => c = ' ' ∨ c = '\n' ∨ c = '\t' ∨ c = '\r'
  | none => false

/-- Drops blanks and shows the next symbol. -/
def blanks : Reader (Option Symbol) := fun input =>
  let rest := input.dropWhile isBlankSymbol
  .ok (rest.head?, rest)

/-- Takes the given letters, one by one. -/
def word : List Char → Reader Unit
  | [] => return ()
  | c :: cs => do
    match ← peek with
    | none => fail .endInValue
    | some symbol =>
      if symbol = some c then
        advance
        word cs
      else fail .badWord

/-! ### Strings -/

/-- The four digits of a numeric escape. They are looked at only if four more bytes follow. -/
def hexEscape : Reader Nat := fun input =>
  if Input.byteCount (input.take 4) < 4 then .error (Cause.endInString : Fault)
  else
    match (input.take 4).mapM (fun symbol => symbol.bind Hex.digit?) with
    | some digits => .ok (Hex.ofDigits digits, input.drop 4)
    | none => .error (Cause.badEscape : Fault)

/-- Takes a given character of the second half of a surrogate pair. -/
def pairMark (c : Char) : Reader Unit := do
  match ← peek with
  | none => fail .endInString
  | some symbol => if symbol = some c then advance else fail .halfPair

/-- The character of a numeric escape, which may take two of them. -/
def numericEscape : Reader Char := do
  let first ← hexEscape
  if 0xDC00 ≤ first ∧ first ≤ 0xDFFF then fail .loneSurrogate
  else if 0xD800 ≤ first ∧ first ≤ 0xDBFF then
    pairMark '\\'
    pairMark 'u'
    let second ← hexEscape
    if 0xDC00 ≤ second ∧ second ≤ 0xDFFF then
      return Char.ofNat ((first - 0xD800) * 0x400 + (second - 0xDC00) + 0x10000)
    else fail .loneSurrogate
  else return Char.ofNat first

/-- The character that a single letter stands for after a backslash. -/
def shortEscape? : Char → Option Char
  | '"' => some '"'
  | '\\' => some '\\'
  | '/' => some '/'
  | 'b' => some '\x08'
  | 'f' => some '\x0c'
  | 'n' => some '\n'
  | 'r' => some '\r'
  | 't' => some '\t'
  | _ => none

/-- The character of an escape, after its backslash. -/
def escape : Reader Char := do
  match ← peek with
  | none => fail .endInString
  | some none => fail .badEscape
  | some (some c) =>
    advance
    if c = 'u' then numericEscape
    else match shortEscape? c with
      | some unescaped => return unescaped
      | none => fail .badEscape

/-- A control character must not stand in a string as it is. -/
def isControl (c : Char) : Bool := c.toNat < 0x20

/-- The rest of a string, up to and with its closing mark, after the symbols `before` in reverse
order. Each turn takes a symbol, so the length of the input bounds the number of turns. -/
def stringAfter : (turns : Nat) → (before : List Symbol) → Reader String
  | 0, _ => fail .endInString
  | turns + 1, before => do
    match ← peek with
    | none => fail .endInString
    | some none =>
      advance
      stringAfter turns (none :: before)
    | some (some c) =>
      if c = '"' then
        advance
        match before.reverse.mapM id with
        | some cs => return String.ofList cs
        | none => fail .notUnicode
      else if c = '\\' then
        advance
        let unescaped ← escape
        stringAfter turns (some unescaped :: before)
      else if isControl c then fail .controlCharacter
      else
        advance
        stringAfter turns (some c :: before)

/-- A string after its opening mark. -/
def string : Reader String := fun input => stringAfter (input.length + 1) [] input

/-- An escape of a string that nobody wants: its digits are looked at, but not what they denote. -/
def skipEscape : Reader Unit := do
  match ← peek with
  | none => fail .endInString
  | some none => fail .badEscape
  | some (some c) =>
    advance
    if c = 'u' then discard hexEscape
    else if (shortEscape? c).isSome then return ()
    else fail .badEscape

/-- The rest of a string that nobody wants. -/
def skipStringAfter : (turns : Nat) → Reader Unit
  | 0 => fail .endInString
  | turns + 1 => do
    match ← peek with
    | none => fail .endInString
    | some none =>
      advance
      skipStringAfter turns
    | some (some c) =>
      if c = '"' then advance
      else if c = '\\' then
        advance
        skipEscape
        skipStringAfter turns
      else if isControl c then fail .controlCharacter
      else
        advance
        skipStringAfter turns

/-- A string that nobody wants, after its opening mark. -/
def skipString : Reader Unit := fun input => skipStringAfter (input.length + 1) input

/-! ### Arrays and objects -/

/-- Whether another item follows in an array; the closing bracket stays where it is. -/
def nextItem (first : Bool) : Reader Bool := do
  match ← blanks with
  | none => fail .endInList
  | some (some ']') => return false
  | some symbol =>
    if first then return true
    else if symbol = some ',' then
      advance
      match ← blanks with
      | none => fail .endInValue
      | some (some ']') => fail .trailingComma
      | some _ => return true
    else fail .noCommaInList

/-- The key at this place. -/
def key : Reader String := do
  match ← peek with
  | none => fail .endInValue
  | some (some '"') =>
    advance
    string
  | some (some '\x7d') => fail .trailingComma
  | some _ => fail .keyNotString

/-- The next key of an object, if another field follows; the closing brace stays where it is. -/
def nextKey (first : Bool) : Reader (Option String) := do
  match ← blanks with
  | none => fail .endInObject
  | some (some '\x7d') => return none
  | some symbol =>
    if first then
      if symbol = some '"' then
        advance
        some <$> string
      else fail .keyNotString
    else if symbol = some ',' then
      advance
      discard blanks
      some <$> key
    else fail .noCommaInObject

/-- The colon between a key and its value. -/
def colon : Reader Unit := do
  match ← blanks with
  | none => fail .endInObject
  | some (some ':') => advance
  | some _ => fail .noColon

/-- The closing bracket of an array whose items have all been read. -/
def closeList : Reader Unit := do
  match ← blanks with
  | none => fail .endInList
  | some (some ']') => advance
  | some (some ',') =>
    advance
    match ← blanks with
    | some (some ']') => fail .trailingComma
    | _ => fail .trailingCharacters
  | some _ => fail .trailingCharacters

/-- The closing brace of an object whose fields have all been read. -/
def closeObject : Reader Unit := do
  match ← blanks with
  | none => fail .endInObject
  | some (some '\x7d') => advance
  | some (some ',') => fail .trailingComma
  | some _ => fail .trailingCharacters

/-- Nothing but blanks follows. -/
def finish : Reader Unit := do
  match ← blanks with
  | none => return ()
  | some _ => fail .trailingCharacters

end RoomRelay.Json
