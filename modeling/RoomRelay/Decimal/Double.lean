/-!
# Binary floating-point numbers by their bits

A number that is no integer of the ranges kept exactly is held in 64-bit binary floating point.
The bits, not the number, are the value: zero has two of them, and they are written differently.

## Main definitions

* `Double` — the 64 bits
* `Double.ofFloat`, `Double.toFloat` — to and from the arithmetic type
* `Double.isNegative`, `Double.significand`, `Double.exponent` — the fields of a finite number,
  whose magnitude is `significand * 2 ^ exponent`
-/

namespace RoomRelay

/-- A floating-point number, given by its 64 bits. -/
structure Double where
  /-- Sign, eleven bits of exponent and 52 bits of fraction. -/
  bits : UInt64
  deriving DecidableEq, Inhabited

namespace Double

/-- The bits of a floating-point number. -/
def ofFloat (x : Float) : Double := ⟨x.toBits⟩

/-- The floating-point number with these bits. -/
def toFloat (d : Double) : Float := Float.ofBits d.bits

/-- How many fractions there are: two to the power 52. -/
def fractions : Nat := 4503599627370496

/-- How many exponents there are: two to the power 11. -/
def exponents : Nat := 2048

/-- The sign bit. -/
def isNegative (d : Double) : Bool := d.bits.toNat / fractions / exponents = 1

/-- The eleven bits of the exponent. -/
def biased (d : Double) : Nat := d.bits.toNat / fractions % exponents

/-- The 52 bits of the fraction. -/
def fraction (d : Double) : Nat := d.bits.toNat % fractions

/-- The integer that a power of two scales to the magnitude. -/
def significand (d : Double) : Nat :=
  if d.biased = 0 then d.fraction else fractions + d.fraction

/-- The power of two that scales the significand. -/
def exponent (d : Double) : Int :=
  if d.biased = 0 then -1074 else (d.biased : Int) - 1075

/-- The number below in magnitude is only half a unit away: the significand is the least one of its
exponent, and the exponent is not the least of all. -/
def closeBelow (d : Double) : Bool := d.fraction = 0 && 1 < d.biased

end Double

end RoomRelay
