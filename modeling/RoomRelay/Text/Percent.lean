import RoomRelay.Text.Hex
import RoomRelay.Text.Utf8

/-!
# Escapes in paths and queries

A byte can be written as `%` and two digits of base sixteen. A `%` without two digits behind it
stands for itself. A query is a list of pairs between `&`, written in the same way, but with `+` for
a blank.

## Main definitions

* `Percent.decode`, `Percent.text?` — the bytes and the text that a part of a path stands for
* `Form.pairs` — the names and values of a query
-/

namespace RoomRelay

namespace Percent

/-- The value of a digit that is given as a byte. -/
def digit? (b : UInt8) : Option UInt8 :=
  (Hex.digit? (Char.ofNat b.toNat)).map fun d => UInt8.ofNat d.val

/-- The byte that two digits stand for. -/
def byte? (high low : UInt8) : Option UInt8 := do return (← digit? high) * 16 + (← digit? low)

/-- The mark of an escape. -/
def mark : UInt8 := 0x25

/-- The bytes after the first `skip`, which belong to an escape, with their escapes replaced. -/
def decodeAfter : (skip : Nat) → List UInt8 → List UInt8
  | _, [] => []
  | skip + 1, _ :: rest => decodeAfter skip rest
  | 0, b :: rest =>
    match if b = mark then rest[0]?.bind fun x => rest[1]?.bind (byte? x) else none with
    | some byte => byte :: decodeAfter 2 rest
    | none => b :: decodeAfter 0 rest

/-- The bytes with their escapes replaced. -/
def decode (bytes : List UInt8) : List UInt8 := decodeAfter 0 bytes

/-- The text that a part of a path stands for, if it is one. -/
def text? (part : String) : Option String := Utf8.text? (decode (Utf8.bytes part))

end Percent

namespace Form

/-- A blank is written as `+`. -/
def blanks (bytes : List UInt8) : List UInt8 := bytes.map fun b => if b = 0x2B then 0x20 else b

/-- The text that a name or a value stands for; a byte that is part of no character becomes a
replacement character. -/
def text (bytes : List UInt8) : String :=
  String.ofList ((Utf8.symbols (Percent.decode (blanks bytes))).map (·.getD '\ufffd'))

/-- The name and the value of a pair, which the first `=` parts. -/
def pair (bytes : List UInt8) : String × String :=
  (text (bytes.takeWhile (· ≠ 0x3D)), text ((bytes.dropWhile (· ≠ 0x3D)).drop 1))

/-- The pairs of a query. -/
def pairs (query : String) : List (String × String) :=
  (((Utf8.bytes query).splitOn 0x26).filter (· ≠ [])).map pair

end Form

end RoomRelay
