/-!
# Hexadecimal digits

The sixteen digits are written in lower case and read in either case.

## Main definitions

* `Hex.digit?` — the value of a hexadecimal digit
* `Hex.char` — the digit of a value, in lower case
* `Hex.ofDigits` — the number that a list of digits denotes, most significant first
-/

namespace RoomRelay.Hex

/-- The value of a hexadecimal digit in either case. -/
def digit? (c : Char) : Option (Fin 16) :=
  if '0' ≤ c ∧ c ≤ '9' then some (Fin.ofNat 16 (c.toNat - '0'.toNat))
  else if 'a' ≤ c ∧ c ≤ 'f' then some (Fin.ofNat 16 (c.toNat - 'a'.toNat + 10))
  else if 'A' ≤ c ∧ c ≤ 'F' then some (Fin.ofNat 16 (c.toNat - 'A'.toNat + 10))
  else none

/-- The sixteen digits in lower case. -/
def alphabet : List Char :=
  ['0', '1', '2', '3', '4', '5', '6', '7', '8', '9', 'a', 'b', 'c', 'd', 'e', 'f']

/-- The lower-case digit of a value. -/
def char (d : Fin 16) : Char := alphabet.get d

@[simp] theorem digit?_char (d : Fin 16) : digit? (char d) = some d := by
  revert d; decide

/-- Digits are ASCII characters. -/
theorem toNat_lt_of_digit? {c : Char} {d : Fin 16} (h : digit? c = some d) : c.toNat < 128 := by
  simp only [digit?, Char.le_def, UInt32.le_iff_toNat_le] at h
  split at h
  · next hc => exact Nat.lt_of_le_of_lt hc.2 (by decide)
  · split at h
    · next hc => exact Nat.lt_of_le_of_lt hc.2 (by decide)
    · split at h
      · next hc => exact Nat.lt_of_le_of_lt hc.2 (by decide)
      · cases h

/-- The number that the digits denote, most significant first. -/
def ofDigits (ds : List (Fin 16)) : Nat := ds.foldl (fun n d => 16 * n + d.val) 0

/-- The lowest `count` hexadecimal digits of a number, most significant first. -/
def digits : (count : Nat) → (n : Nat) → List (Fin 16)
  | 0, _ => []
  | count + 1, n => digits count (n / 16) ++ [Fin.ofNat 16 n]

@[simp] theorem length_digits (count n : Nat) : (digits count n).length = count := by
  induction count generalizing n with
  | zero => rfl
  | succ count ih => simp [digits, ih]

/-- The text of the lowest `count` digits of a number. -/
def text (count n : Nat) : List Char := (digits count n).map char

/-- The two digits of each byte, in order. -/
def ofBytes (bytes : List UInt8) : List Char := bytes.flatMap fun b => text 2 b.toNat

/-- The bytes that pairs of digits denote; an odd or foreign digit spoils the whole. -/
def bytes? : List Char → Option (List UInt8)
  | [] => some []
  | [_] => none
  | high :: low :: rest => do
    let h ← digit? high
    let l ← digit? low
    let bytes ← bytes? rest
    return UInt8.ofNat (16 * h.val + l.val) :: bytes

end RoomRelay.Hex
