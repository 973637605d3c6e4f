import RoomRelay.Uuid
import RoomRelay.Text.Quoted
import RoomRelay.Decimal.Shortest

/-!
# What can be wrong with a document text

The first fault in text order ends reading. Its cause says what it is; the path says inside which
value it lies, and is told only for the bodies of requests.

## Main definitions

* `Json.Cause`, `Json.Cause.category`, `Json.Cause.message` — the causes, in three categories, and
  their wording
* `Json.Step`, `Json.Fault`, `Json.Fault.located` — a cause with the steps that lead to it
-/

namespace RoomRelay.Json

/-- The three categories of faults: broken text, text that ends too early, and values that are not
of the wanted form. -/
inductive Category
  | broken
  | truncated
  | mismatched
  deriving DecidableEq

/-- What stood where a value of another form was wanted. -/
inductive Found
  | null
  | boolean (value : Bool)
  | integer (value : Int)
  | float (value : Double)
  | text (value : String)
  | sequence
  | map
  deriving DecidableEq

/-- The description of a value in a message. -/
def Found.describe : Found → String
  | null => "null"
  | boolean value => "boolean `" ++ toString value ++ "`"
  | integer value => "integer `" ++ toString value ++ "`"
  | float value => "floating point `" ++ String.ofList (Decimal.render value) ++ "`"
  | text value => "string " ++ Text.quote value
  | sequence => "sequence"
  | map => "map"

/-- What is wrong with a text. -/
inductive Cause
  /-- The text ends where a value is wanted. -/
  | endInValue
  /-- The text ends inside an object. -/
  | endInObject
  /-- The text ends inside an array. -/
  | endInList
  /-- The text ends inside a string. -/
  | endInString
  /-- No value starts here. -/
  | noValue
  /-- A word that starts like `null`, `true` or `false` and goes on differently. -/
  | badWord
  /-- No colon after a key. -/
  | noColon
  /-- Neither a comma nor the end of the object. -/
  | noCommaInObject
  /-- Neither a comma nor the end of the array. -/
  | noCommaInList
  /-- A key that is no string. -/
  | keyNotString
  /-- A comma before a closing bracket. -/
  | trailingComma
  /-- Something after the value. -/
  | trailingCharacters
  /-- A number that is not well formed. -/
  | badNumber
  /-- A number beyond every finite one. -/
  | numberTooLarge
  /-- An escape that does not exist. -/
  | badEscape
  /-- Half of a surrogate pair, or the wrong half. -/
  | loneSurrogate
  /-- The first half of a surrogate pair without a second escape. -/
  | halfPair
  /-- A control character inside a string. -/
  | controlCharacter
  /-- Bytes inside a string that are no UTF-8. -/
  | notUnicode
  /-- Too many brackets open at once. -/
  | tooDeep
  /-- A record without a field that it needs. -/
  | missingField (name : String)
  /-- A record with a field given twice, under whatever spelling. -/
  | duplicateField (name : String)
  /-- A value of another form than the wanted one. -/
  | wrongForm (found : Found) (wanted : String)
  /-- A value of the right form that is not acceptable. -/
  | wrongValue (found : Found) (wanted : String)
  /-- A sequence with too few or too many items. -/
  | wrongLength (found : Nat) (wanted : String)
  /-- A word that is none of the choices. -/
  | unknownChoice (word : String) (choices : List String)
  /-- A text that spells no identifier. -/
  | badUuid (fault : Uuid.Fault)
  deriving DecidableEq

namespace Cause

/-- The category of a cause. -/
def category : Cause → Category
  | endInValue | endInObject | endInList | endInString => .truncated
  | missingField _ | duplicateField _ | wrongForm _ _ | wrongValue _ _ | wrongLength _ _
  | unknownChoice _ _ | badUuid _ => .mismatched
  | _ => .broken

/-- Words in backquotes: two are joined by "or", more of them stand in a list. -/
def describeChoices : List String → String
  | [] => "there are no variants"
  | [only] => "expected `" ++ only ++ "`"
  | [first, second] => "expected `" ++ first ++ "` or `" ++ second ++ "`"
  | choices => "expected one of " ++ ", ".intercalate (choices.map fun c => "`" ++ c ++ "`")

/-- The wording of a cause. -/
def message : Cause → String
  | endInValue => "EOF while parsing a value"
  | endInObject => "EOF while parsing an object"
  | endInList => "EOF while parsing a list"
  | endInString => "EOF while parsing a string"
  | noValue => "expected value"
  | badWord => "expected ident"
  | noColon => "expected `:`"
  | noCommaInObject => "expected `,` or `\x7d`"
  | noCommaInList => "expected `,` or `]`"
  | keyNotString => "key must be a string"
  | trailingComma => "trailing comma"
  | trailingCharacters => "trailing characters"
  | badNumber => "invalid number"
  | numberTooLarge => "number out of range"
  | badEscape => "invalid escape"
  | loneSurrogate => "lone leading surrogate in hex escape"
  | halfPair => "unexpected end of hex escape"
  | controlCharacter => "control character (\\u0000-\\u001F) found while parsing a string"
  | notUnicode => "invalid unicode code point"
  | tooDeep => "recursion limit exceeded"
  | missingField name => "missing field `" ++ name ++ "`"
  | duplicateField name => "duplicate field `" ++ name ++ "`"
  | wrongForm found wanted => "invalid type: " ++ found.describe ++ ", expected " ++ wanted
  | wrongValue found wanted => "invalid value: " ++ found.describe ++ ", expected " ++ wanted
  | wrongLength found wanted => "invalid length " ++ toString found ++ ", expected " ++ wanted
  | unknownChoice word choices => "unknown variant `" ++ word ++ "`, " ++ describeChoices choices
  | badUuid fault => "UUID parsing failed: " ++ fault.message

end Cause

/-- One step from a value to a value inside it. -/
inductive Step
  /-- To the field of an object. -/
  | key (name : String)
  /-- To an item of an array. -/
  | index (position : Nat)
  /-- To what belongs to a choice that is spelt as an object. -/
  | choice (word : String)
  /-- To a place that has no name yet, because its key could not be read. -/
  | unnamed
  deriving DecidableEq

namespace Step

/-- The step as it follows other steps; the first one has no point before it. -/
def text (first : Bool) : Step → String
  | key name => (if first then "" else ".") ++ name
  | index position => "[" ++ toString position ++ "]"
  | choice word => (if first then "" else ".") ++ word
  | unnamed => (if first then "" else ".") ++ "?"

end Step

/-- A cause and the steps from the whole value to the place of the fault. -/
structure Fault where
  /-- What is wrong. -/
  cause : Cause
  /-- From the outside to the inside. -/
  path : List Step := []
  deriving DecidableEq

namespace Fault

instance : Coe Cause Fault := ⟨fun cause => ⟨cause, []⟩⟩

/-- The fault seen from one step further out. -/
def under (step : Step) (fault : Fault) : Fault := { fault with path := step :: fault.path }

/-- The wording of the fault, without its place. -/
def message (fault : Fault) : String := fault.cause.message

/-- The category of the fault. -/
def category (fault : Fault) : Category := fault.cause.category

/-- The text of a path. -/
def pathText : List Step → String
  | [] => ""
  | first :: rest => first.text true ++ String.join (rest.map (·.text false))

/-- The wording of the fault with its place in front, unless nothing on the path has a name. -/
def located (fault : Fault) : String :=
  if fault.path.all (· = .unnamed) then fault.message
  else pathText fault.path ++ ": " ++ fault.message

end Fault

end RoomRelay.Json
