import RoomRelay.Decimal.Double

/-!
# Decimals as floating-point numbers

A decimal is read as an integer of at most 64 bits and a power of ten. The integer is rounded to a
floating-point number and then multiplied or divided by the power of ten, which is a second
rounding; the result may therefore be the neighbour of the number nearest to the decimal.

## Main definitions

* `Decimal.scaled?` — the number, or `none` if it exceeds every finite one
-/

namespace RoomRelay.Decimal

/-- The largest power of ten that is a finite floating-point number. -/
def largestPower : Nat := 308

/-- The floating-point number nearest to a power of ten. -/
def powerOfTen (n : Nat) : Float := Float.ofScientific 1 false n

/-- Divides by the largest power of ten until the rest of a negative exponent is in range; the
quotient of any number is zero after three divisions. -/
def divided : (rounds : Nat) → (x : Float) → (exponent : Nat) → Float
  | 0, x, _ => x
  | rounds + 1, x, exponent =>
    if exponent ≤ largestPower then x / powerOfTen exponent
    else if x == 0.0 then x
    else divided rounds (x / powerOfTen largestPower) (exponent - largestPower)

/-- The floating-point number for `significand * 10 ^ exponent`, or `none` if it is too large. -/
def scaled? (significand : Nat) (exponent : Int) : Option Float :=
  let x := (UInt64.ofNat significand).toFloat
  if exponent < 0 then some (divided 4 x exponent.natAbs)
  else if exponent.toNat ≤ largestPower then
    let y := x * powerOfTen exponent.toNat
    if y.isInf then none else some y
  else if x == 0.0 then some x
  else none

end RoomRelay.Decimal
