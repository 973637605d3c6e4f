import RoomRelay.Text.Unprintable

/-!
# Quoted texts

A text inside a message for people stands between quotation marks, with the marks, the backslash
and whatever cannot be seen written as escapes.

## Main definitions

* `Text.escape` — one character as it stands between the marks
* `Text.quote` — the text between quotation marks
-/

namespace RoomRelay.Text

/-- A code point in the braces of a numeric escape, in lower-case digits without leading zeros. -/
def numericEscape (c : Char) : List Char :=
  ['\\', 'u', '\x7b'] ++ Nat.toDigits 16 c.toNat ++ ['\x7d']

/-- One character as it stands between quotation marks. -/
def escape (c : Char) : List Char :=
  if c = '\x00' then ['\\', '0']
  else if c = '\t' then ['\\', 't']
  else if c = '\r' then ['\\', 'r']
  else if c = '\n' then ['\\', 'n']
  else if c = '"' ∨ c = '\\' then ['\\', c]
  else if isUnprintable c then numericEscape c
  else [c]

/-- The text between quotation marks. -/
def quote (text : String) : String :=
  String.ofList (['"'] ++ text.toList.flatMap escape ++ ['"'])

end RoomRelay.Text
