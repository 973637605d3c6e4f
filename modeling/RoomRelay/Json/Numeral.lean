import RoomRelay.Bits
import RoomRelay.Json.Reader
import RoomRelay.Json.Value
import RoomRelay.Decimal.Scaled

/-!
# Numerals

An integer that fits 64 bits, signed or not, is kept exactly. Any other number is read into an
integer of at most 64 bits and a power of ten: digits are kept as long as they fit, digits before
the point that no longer fit raise the power, and digits after it are then of no account.

## Main definitions

* `Json.Significand` — the digits kept so far and the power of ten
* `Json.numeral` — a number that is wanted
* `Json.skipNumeral` — a number that nobody wants, of which only the form is looked at
-/

namespace RoomRelay.Json

/-- The value of a decimal digit. -/
def digit? : Symbol → Option Nat
  | some c => if '0' ≤ c ∧ c ≤ '9' then some (c.toNat - '0'.toNat) else none
  | none => none

/-- The digits at the front of the input. -/
def digitRun (input : Input) : List Nat := (input.takeWhile (digit? · |>.isSome)).filterMap digit?

/-- Takes the digits at the front. -/
def digits : Reader (List Nat) := fun input =>
  .ok (digitRun input, input.dropWhile (digit? · |>.isSome))

/-- An integer and the power of ten that scales it. -/
structure Significand where
  /-- The digits kept. -/
  value : Nat
  /-- The power of ten. -/
  power : Int

namespace Significand

/-- Collects digits while they fit; the ones that do not are returned. -/
def collect : (value : Nat) → List Nat → Nat × List Nat
  | value, [] => (value, [])
  | value, d :: ds =>
    if value * 10 + d ≤ Bits.greatest64 then collect (value * 10 + d) ds else (value, d :: ds)

/-- Adds the digits after the point. -/
def withFraction (s : Significand) (fraction : List Nat) : Significand :=
  let (value, rest) := collect s.value fraction
  ⟨value, s.power - (fraction.length - rest.length : Nat)⟩

/-- The number that a sign and a significand denote. -/
def toNumber (negative : Bool) (s : Significand) : Except Fault Number :=
  match Decimal.scaled? s.value s.power with
  | some x => .ok (.float (.ofFloat (if negative then -x else x)))
  | none => .error (Cause.numberTooLarge : Fault)

end Significand

/-- Digits where at least one is needed. -/
def someDigits : Reader (List Nat) := do
  let ds ← digits
  if ds.isEmpty then
    match ← peek with
    | none => fail .endInValue
    | some _ => fail .badNumber
  else return ds

/-- The exponent after its letter. -/
def exponent : Reader Int := do
  let negative ← do
    match ← peek with
    | some (some '+') =>
      advance
      pure false
    | some (some '-') =>
      advance
      pure true
    | _ => pure false
  let ds ← someDigits
  let magnitude : Nat := ds.foldl (fun n d => n * 10 + d) 0
  return if negative then -magnitude else magnitude

/-- The exponent, if there is one. -/
def exponentPart : Reader (Option Int) := do
  match ← peek with
  | some (some c) =>
    if c = 'e' ∨ c = 'E' then
      advance
      some <$> exponent
    else return none
  | _ => return none

/-- The digits after the point, if there is one. -/
def fractionPart : Reader (Option (List Nat)) := do
  match ← peek with
  | some (some '.') =>
    advance
    some <$> someDigits
  | _ => return none

/-- The digits before the point: a zero stands alone. -/
def integerPart : Reader (List Nat) := do
  match ← peek with
  | none => fail .endInValue
  | some symbol =>
    match digit? symbol with
    | none => fail .badNumber
    | some 0 =>
      advance
      match ← peek with
      | some next => if (digit? next).isSome then fail .badNumber else return [0]
      | none => return [0]
    | some _ => digits

/-- An integer that is kept exactly, if it fits; zero with a sign does not. -/
def exactInteger? (negative : Bool) (s : Significand) : Option Int :=
  if s.power ≠ 0 then none
  else if negative then if 0 < s.value ∧ s.value ≤ Bits.leastSigned64 then some (-s.value) else none
  else some s.value

/-- A number after its sign. -/
def unsignedNumeral (negative : Bool) : Reader Number := do
  let (value, rest) := Significand.collect 0 (← integerPart)
  let whole : Significand := ⟨value, rest.length⟩
  let fraction ← fractionPart
  let scaled := match fraction with
    | some ds => whole.withFraction ds
    | none => whole
  let power ← exponentPart
  match fraction, power, exactInteger? negative whole with
  | none, none, some n => return .int n
  | _, _, _ => liftM (Significand.toNumber negative ⟨scaled.value, scaled.power + power.getD 0⟩)

/-- A number. -/
def numeral : Reader Number := do
  match ← peek with
  | some (some '-') =>
    advance
    unsignedNumeral true
  | _ => unsignedNumeral false

/-- Digits of a number that nobody wants. -/
def skipDigits : Reader Unit := do
  if (← digits).isEmpty then fail .badNumber else return ()

/-- A number that nobody wants. -/
def skipNumeral : Reader Unit := do
  match ← peek with
  | some (some '-') => advance
  | _ => pure ()
  match ← peek with
  | none => fail .badNumber
  | some symbol =>
    match digit? symbol with
    | none => fail .badNumber
    | some 0 =>
      advance
      match ← peek with
      | some next => if (digit? next).isSome then fail .badNumber else pure ()
      | none => pure ()
    | some _ => discard digits
  match ← peek with
  | some (some '.') =>
    advance
    skipDigits
  | _ => pure ()
  match ← peek with
  | some (some c) =>
    if c = 'e' ∨ c = 'E' then
      advance
      match ← peek with
      | some (some sign) => if sign = '+' ∨ sign = '-' then advance else pure ()
      | _ => pure ()
      skipDigits
    else pure ()
  | _ => pure ()

end RoomRelay.Json
