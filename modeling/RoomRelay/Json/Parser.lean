import RoomRelay.Json.Numeral

/-!
# Values from a text

A value that is kept may have at most 127 arrays and objects open at once; one that is skipped may
nest without limit, and its strings and numbers are looked at less closely.

## Main definitions

* `Json.depthLimit` — the limit for values that are kept
* `Json.value` — a value that is kept, its objects' fields as they stand
* `Json.skipValue` — a value that nobody wants
* `Json.scalar` — a value where something else is wanted, as far as a message describes it
* `Json.parseInput`, `Json.parseWith`, `Json.parseValue` — a whole input or text
-/

namespace RoomRelay.Json

/-- The number of arrays and objects that may be open at once. -/
def depthLimit : Nat := 127

/-- The items of an array up to its closing bracket, which is taken too. Each turn takes a symbol,
so the length of the input bounds the number of turns. -/
def items (item : Reader α) : (turns : Nat) → (before : List α) → Reader (List α)
  | 0, _ => fail .endInList
  | turns + 1, before => do
    if ← nextItem before.isEmpty then
      let x ← within (.index before.length) item
      items item turns (x :: before)
    else
      advance
      return before.reverse

/-- The fields of an object up to its closing brace, which is taken too. -/
def members (item : Reader α) : (turns : Nat) → (before : List (String × α)) →
    Reader (List (String × α))
  | 0, _ => fail .endInObject
  | turns + 1, before => do
    match ← within .unnamed (nextKey before.isEmpty) with
    | some name =>
      let x ← within (.key name) (colon *> item)
      members item turns ((name, x) :: before)
    | none =>
      advance
      return before.reverse

/-- A value that is kept; `nested` reads the values inside it, unless no more may be open. -/
def valueAround (nested : Option (Reader Value)) : Reader Value := do
  match ← blanks with
  | none => fail .endInValue
  | some none => fail .noValue
  | some (some c) =>
    if c = 'n' then word "null".toList *> pure .null
    else if c = 't' then word "true".toList *> pure (.bool true)
    else if c = 'f' then word "false".toList *> pure (.bool false)
    else if c = '"' then
      advance
      .string <$> string
    else if c = '-' ∨ (digit? c).isSome then .number <$> numeral
    else if c = '[' then
      match nested with
      | none => fail .tooDeep
      | some inner =>
        advance
        .array <$> items inner ((← get).length + 1) []
    else if c = '\x7b' then
      match nested with
      | none => fail .tooDeep
      | some inner =>
        advance
        .object <$> members inner ((← get).length + 1) []
    else fail .noValue

/-- A value that is kept, with at most `depth` arrays and objects open in it. -/
def value : (depth : Nat) → Reader Value
  | 0 => valueAround none
  | depth + 1 => valueAround (some (value depth))

/-- After an item of an array or object that nobody wants: whether another one follows. The causes
are those of a missing comma and of the end of the text. -/
def skipComma (close : Char) (missing : Cause) (ended : Cause) : Reader Bool := do
  match ← blanks with
  | none => fail ended
  | some symbol =>
    if symbol = some ',' then
      advance
      return true
    else if symbol = some close then
      advance
      return false
    else fail missing

/-- The items of an array that nobody wants; after a comma another item must follow. -/
def skipItems (item : Reader Unit) : (turns : Nat) → Reader Unit
  | 0 => fail .endInList
  | turns + 1 => do
    item
    if ← skipComma ']' .noCommaInList .endInList then skipItems item turns else return ()

/-- A key that nobody wants, with its colon. -/
def skipKey : Reader Unit := do
  match ← blanks with
  | none => fail .endInObject
  | some (some '"') =>
    advance
    skipString
    colon
  | some _ => fail .keyNotString

/-- The fields of an object that nobody wants; after a comma another key must follow. -/
def skipMembers (item : Reader Unit) : (turns : Nat) → Reader Unit
  | 0 => fail .endInObject
  | turns + 1 => do
    skipKey
    item
    if ← skipComma '\x7d' .noCommaInObject .endInObject then skipMembers item turns else return ()

/-- A value that nobody wants. Each open bracket takes a symbol, so that the length of the input
bounds how deep it nests. -/
def skipNested : (depth : Nat) → Reader Unit
  | 0 => fail .endInValue
  | depth + 1 => do
    match ← blanks with
    | none => fail .endInValue
    | some none => fail .noValue
    | some (some c) =>
      if c = 'n' then word "null".toList
      else if c = 't' then word "true".toList
      else if c = 'f' then word "false".toList
      else if c = '"' then
        advance
        skipString
      else if c = '-' ∨ (digit? c).isSome then skipNumeral
      else if c = '[' then
        advance
        match ← blanks with
        | none => fail .endInList
        | some (some ']') => advance
        | some _ => skipItems (skipNested depth) ((← get).length + 1)
      else if c = '\x7b' then
        advance
        match ← blanks with
        | none => fail .endInObject
        | some (some '\x7d') => advance
        | some _ => skipMembers (skipNested depth) ((← get).length + 1)
      else fail .noValue

/-- A value that nobody wants. -/
def skipValue : Reader Unit := fun input => skipNested (input.length + 1) input

/-- What stands at this place instead of the wanted value: scalars are read whole, of an array or
object only the bracket is looked at. -/
def scalar : Reader Found := do
  match ← blanks with
  | none => fail .endInValue
  | some none => fail .noValue
  | some (some c) =>
    if c = 'n' then word "null".toList *> pure .null
    else if c = 't' then word "true".toList *> pure (.boolean true)
    else if c = 'f' then word "false".toList *> pure (.boolean false)
    else if c = '"' then
      advance
      .text <$> string
    else if c = '-' ∨ (digit? c).isSome then
      match ← numeral with
      | .int n => return .integer n
      | .float x => return .float x
    else if c = '[' then return .sequence
    else if c = '\x7b' then return .map
    else fail .noValue

/-- Reports that a value of another form was wanted. -/
def wanted (form : String) : Reader α := do
  let found ← scalar
  fail (.wrongForm found form)

/-- Reads a whole input. -/
def parseInput (reader : Reader α) (input : Input) : Except Fault α := (reader <* finish).run' input

/-- Reads a whole text. -/
def parseWith (reader : Reader α) (text : String) : Except Fault α :=
  parseInput reader (Text.symbols text)

/-- Reads a whole text that is any value, without a limit on nesting. -/
def parseValue (text : String) : Except Fault Value := parseWith (value text.length) text

end RoomRelay.Json
