/-!
# Bytes as letters, digits, `-` and `_`

Three bytes are written as four characters of six bits each; one or two bytes at the end as two or
three characters, whose last bits are zero. Nothing fills up the last group.

## Main definitions

* `Base64Url.encode`, `Base64Url.decode?`
-/

namespace RoomRelay.Base64Url

/-- The characters in the order of their values. -/
def alphabet : List Char :=
  "ABCDEFGHIJKLMNOPQRSTUVWXYZabcdefghijklmnopqrstuvwxyz0123456789-_".toList

/-- The character of a value. -/
def char (n : Nat) : Char := alphabet.getD (n % 64) 'A'

/-- The value of a character. -/
def value? (c : Char) : Option Nat :=
  if 'A' ≤ c ∧ c ≤ 'Z' then some (c.toNat - 'A'.toNat)
  else if 'a' ≤ c ∧ c ≤ 'z' then some (c.toNat - 'a'.toNat + 26)
  else if '0' ≤ c ∧ c ≤ '9' then some (c.toNat - '0'.toNat + 52)
  else if c = '-' then some 62
  else if c = '_' then some 63
  else none

/-- The characters of bytes. -/
def encode : List UInt8 → List Char
  | a :: b :: c :: rest =>
    let n := a.toNat * 65536 + b.toNat * 256 + c.toNat
    char (n / 262144) :: char (n / 4096) :: char (n / 64) :: char n :: encode rest
  | [a, b] =>
    let n := a.toNat * 1024 + b.toNat * 4
    [char (n / 4096), char (n / 64), char n]
  | [a] => [char (a.toNat * 16 / 64), char (a.toNat * 16)]
  | [] => []

/-- The bytes that characters denote. -/
def decode? : List Char → Option (List UInt8)
  | w :: x :: y :: z :: rest => do
    let n := (← value? w) * 262144 + (← value? x) * 4096 + (← value? y) * 64 + (← value? z)
    let bytes ← decode? rest
    return UInt8.ofNat (n / 65536) :: UInt8.ofNat (n / 256) :: UInt8.ofNat n :: bytes
  | [x, y, z] => do
    let n := (← value? x) * 4096 + (← value? y) * 64 + (← value? z)
    if n % 4 = 0 then some [UInt8.ofNat (n / 1024), UInt8.ofNat (n / 4)] else none
  | [y, z] => do
    let n := (← value? y) * 64 + (← value? z)
    if n % 16 = 0 then some [UInt8.ofNat (n / 16)] else none
  | [_] => none
  | [] => some []

end RoomRelay.Base64Url
