/-!
# Bytes and the characters they encode

A request body is bytes. Its reader wants characters, and has to say where the bytes are no UTF-8
only once it gets there, so that decoding never fails: a byte that starts no character becomes a
broken symbol.

## Main definitions

* `Symbol`, `Input` — a character or a byte that is part of none, and lists of them
* `Utf8.symbols` — the symbols of a byte string
* `Utf8.text?` — the text that bytes encode, if they do
* `Utf8.bytes` — the bytes of a text
-/

namespace RoomRelay

/-- A character, or `none` for a byte that is part of no character. -/
abbrev Symbol := Option Char

/-- What a reader still has before it. -/
abbrev Input := List Symbol

/-- The number of bytes a symbol stands for. -/
def Symbol.byteCount : Symbol → Nat
  | some c => c.utf8Size
  | none => 1

/-- The number of bytes that symbols stand for. -/
def Input.byteCount (input : Input) : Nat := input.foldl (fun n symbol => n + symbol.byteCount) 0

/-- The symbols of a text, none of them broken. -/
def Text.symbols (text : String) : Input := text.toList.map some

namespace Utf8

/-- The bytes of a text. -/
def bytes (text : String) : List UInt8 := text.toUTF8.toList

/-- The six payload bits of a continuation byte. -/
def continuation? (b : UInt8) : Option Nat :=
  if 0x80 ≤ b ∧ b < 0xC0 then some (b.toNat - 0x80) else none

/-- A code point that needs more than `least` to be encoded so long, and is no surrogate. -/
def scalar? (least n : Nat) : Option Char :=
  if h : least ≤ n ∧ n.isValidChar then some (Char.ofNatAux n h.2) else none

/-- The character that the bytes start with and the number of bytes that follow its first one. -/
def leading? : List UInt8 → Option (Char × Nat)
  | [] => none
  | a :: rest =>
    if a < 0x80 then some (Char.ofNat a.toNat, 0)
    else if a < 0xC0 then none
    else if a < 0xE0 then do
      let x ← rest[0]? >>= continuation?
      let c ← scalar? 0x80 ((a.toNat - 0xC0) * 64 + x)
      return (c, 1)
    else if a < 0xF0 then do
      let x ← rest[0]? >>= continuation?
      let y ← rest[1]? >>= continuation?
      let c ← scalar? 0x800 (((a.toNat - 0xE0) * 64 + x) * 64 + y)
      return (c, 2)
    else if a < 0xF8 then do
      let x ← rest[0]? >>= continuation?
      let y ← rest[1]? >>= continuation?
      let z ← rest[2]? >>= continuation?
      let c ← scalar? 0x10000 ((((a.toNat - 0xF0) * 64 + x) * 64 + y) * 64 + z)
      return (c, 3)
    else none

/-- The symbols of the bytes after the first `skip`, which belong to a character seen before. -/
def symbolsAfter : (skip : Nat) → List UInt8 → Input
  | _, [] => []
  | skip + 1, _ :: rest => symbolsAfter skip rest
  | 0, b :: rest =>
    match leading? (b :: rest) with
    | some (c, more) => some c :: symbolsAfter more rest
    | none => none :: symbolsAfter 0 rest

/-- The symbols of a byte string. -/
def symbols (bs : List UInt8) : Input := symbolsAfter 0 bs

/-- The text that bytes encode, if every byte belongs to a character. -/
def text? (bs : List UInt8) : Option String := ((symbols bs).mapM id).map String.ofList

end Utf8

end RoomRelay
