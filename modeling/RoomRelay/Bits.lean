/-!
# Numbers of so many bits

## Main definitions

* `Bits.greatest16`, `Bits.greatest32`, `Bits.greatest64` — the greatest numbers without a sign
* `Bits.greatestSigned64`, `Bits.leastSigned64` — the ends of the range of 64 bits with a sign
-/

namespace RoomRelay.Bits

/-- The greatest number of 16 bits. -/
def greatest16 : Nat := 65535

/-- The greatest number of 32 bits. -/
def greatest32 : Nat := 4294967295

/-- The greatest number of 64 bits. -/
def greatest64 : Nat := 18446744073709551615

/-- The greatest number of 64 bits with a sign. -/
def greatestSigned64 : Nat := 9223372036854775807

/-- The magnitude of the least number of 64 bits with a sign. -/
def leastSigned64 : Nat := 9223372036854775808

end RoomRelay.Bits
