import RoomRelay.Bits

/-!
# Numerals in settings and queries

A numeral is one or more decimal digits, after a sign where one is allowed. Its digits are looked at
from the left, so that a numeral can be too large before a foreign character is met.

## Main definitions

* `Numeral.Fault` — what is wrong with a numeral
* `Numeral.natural` — a numeral below a bound, with an optional plus sign
* `Numeral.signed` — a numeral in the range of 64 bits, with an optional sign
-/

namespace RoomRelay.Numeral

/-- What is wrong with a numeral. -/
inductive Fault
  | empty
  | foreignCharacter
  | tooLarge
  | tooSmall
  deriving DecidableEq

/-- The wording. -/
def Fault.message : Fault → String
  | empty => "cannot parse integer from empty string"
  | foreignCharacter => "invalid digit found in string"
  | tooLarge => "number too large to fit in target type"
  | tooSmall => "number too small to fit in target type"

/-- The value of a decimal digit. -/
def digit? (c : Char) : Option Nat :=
  if '0' ≤ c ∧ c ≤ '9' then some (c.toNat - '0'.toNat) else none

/-- The value of digits after the ones that make `value`, all of which must stay within `greatest`;
`excess` is reported otherwise. -/
def digitsFrom (greatest : Nat) (excess : Fault) : (value : Nat) → List Char → Except Fault Nat
  | value, [] => .ok value
  | value, c :: cs =>
    match digit? c with
    | none => .error .foreignCharacter
    | some d =>
      if value * 10 + d ≤ greatest then digitsFrom greatest excess (value * 10 + d) cs
      else .error excess

/-- The value of one or more digits. -/
def digits (greatest : Nat) (excess : Fault) (cs : List Char) : Except Fault Nat :=
  if cs.isEmpty then .error .foreignCharacter else digitsFrom greatest excess 0 cs

/-- A numeral up to `greatest`, with an optional plus sign. -/
def natural (greatest : Nat) (text : String) : Except Fault Nat :=
  match text.toList with
  | [] => .error .empty
  | '+' :: rest => digits greatest .tooLarge rest
  | cs => digits greatest .tooLarge cs

/-- A numeral in the range of 64 bits, with an optional sign. -/
def signed (text : String) : Except Fault Int :=
  match text.toList with
  | [] => .error .empty
  | '+' :: rest => Int.ofNat <$> digits Bits.greatestSigned64 .tooLarge rest
  | '-' :: rest => (fun n => -Int.ofNat n) <$> digits Bits.leastSigned64 .tooSmall rest
  | cs => Int.ofNat <$> digits Bits.greatestSigned64 .tooLarge cs

end RoomRelay.Numeral
