import RoomRelay.Json.Value
import RoomRelay.Decimal.Shortest
import RoomRelay.Text.Hex

/-!
# Values as text

A value is written without blanks, the fields of an object in the order in which they are given.
In a string the quotation mark, the backslash and control characters are escaped and nothing else.

## Main definitions

* `Json.escaped`, `Json.quoted` — a character and a string as they are written
* `Json.Value.chars`, `Json.Value.render` — a value as it is written
-/

namespace RoomRelay.Json

/-- A character as it stands in a string. -/
def escaped (c : Char) : List Char :=
  if c = '"' then ['\\', '"']
  else if c = '\\' then ['\\', '\\']
  else if c = '\x08' then ['\\', 'b']
  else if c = '\t' then ['\\', 't']
  else if c = '\n' then ['\\', 'n']
  else if c = '\x0c' then ['\\', 'f']
  else if c = '\r' then ['\\', 'r']
  else if c.toNat < 0x20 then '\\' :: 'u' :: Hex.text 4 c.toNat
  else [c]

/-- A string between its marks. -/
def quoted (text : String) : List Char := '"' :: text.toList.flatMap escaped ++ ['"']

/-- The digits of a number. -/
def Number.chars : Number → List Char
  | .int n => (toString n).toList
  | .float x => Decimal.render x

/-- Puts a comma between the parts. -/
def commas : List (List Char) → List Char
  | [] => []
  | [part] => part
  | part :: parts => part ++ ',' :: commas parts

namespace Value

mutual

/-- A value as it is written. -/
def chars : Value → List Char
  | null => "null".toList
  | bool true => "true".toList
  | bool false => "false".toList
  | number n => n.chars
  | string text => quoted text
  | array items => '[' :: commas (itemChars items) ++ [']']
  | object fields => '\x7b' :: commas (fieldChars fields) ++ ['\x7d']

/-- The items as they are written. -/
def itemChars : List Value → List (List Char)
  | [] => []
  | item :: items => chars item :: itemChars items

/-- The fields as they are written. -/
def fieldChars : List (String × Value) → List (List Char)
  | [] => []
  | (key, value) :: fields => (quoted key ++ ':' :: chars value) :: fieldChars fields

end

/-- The text of a value. -/
def render (value : Value) : String := String.ofList value.chars

end Value

end RoomRelay.Json
