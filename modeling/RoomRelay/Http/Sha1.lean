import RoomRelay.Token.Sha256

/-!
# The hash SHA-1

A text of bytes is padded to blocks of sixteen words, and each block is mixed into five words of
state in eighty rounds.

## Main definitions

* `Sha1.schedule`, `Sha1.compress` — one block
* `Sha1.hash` — the hash, as 20 bytes
-/

namespace RoomRelay.Sha1

open Sha256 (rotate words blocks padding bigEndian)

/-- Five words that blocks are mixed into. -/
structure State where
  (a b c d e : UInt32)

/-- The words at the start. -/
def initial : State := ⟨0x67452301, 0xefcdab89, 0x98badcfe, 0x10325476, 0xc3d2e1f0⟩

/-- A word turned to the left by some bits. -/
def rotateLeft (x : UInt32) (n : UInt32) : UInt32 := rotate x (32 - n)

/-- The word that follows the last sixteen, which are given latest first. -/
def nextWord (latest : List UInt32) : UInt32 :=
  rotateLeft (latest.getD 2 0 ^^^ latest.getD 7 0 ^^^ latest.getD 13 0 ^^^ latest.getD 15 0) 1

/-- The words latest first, with so many more. -/
def extend : (count : Nat) → List UInt32 → List UInt32
  | 0, latest => latest
  | count + 1, latest => extend count (nextWord latest :: latest)

/-- The eighty words that a block of sixteen gives. -/
def schedule (block : List UInt32) : List UInt32 := (extend 64 block.reverse).reverse

/-- How three words are mixed in a round, and the word that the round adds. -/
def mix (index : Nat) (b c d : UInt32) : UInt32 × UInt32 :=
  if index < 20 then ((b &&& c) ||| (~~~b &&& d), 0x5a827999)
  else if index < 40 then (b ^^^ c ^^^ d, 0x6ed9eba1)
  else if index < 60 then ((b &&& c) ||| (b &&& d) ||| (c &&& d), 0x8f1bbcdc)
  else (b ^^^ c ^^^ d, 0xca62c1d6)

/-- One round with a word of the schedule. -/
def round (s : State) (scheduled : UInt32) (index : Nat) : State :=
  let mixed := mix index s.b s.c s.d
  ⟨rotateLeft s.a 5 + mixed.1 + s.e + mixed.2 + scheduled, s.a, rotateLeft s.b 30, s.c, s.d⟩

/-- The sum of two states, word by word. -/
def State.add (s t : State) : State := ⟨s.a + t.a, s.b + t.b, s.c + t.c, s.d + t.d, s.e + t.e⟩

/-- Mixes a block into the state. -/
def compress (s : State) (block : List UInt32) : State :=
  s.add ((schedule block).zipIdx.foldl (fun t pair => round t pair.1 pair.2) s)

/-- The bytes of the five words. -/
def State.bytes (s : State) : List UInt8 :=
  [s.a, s.b, s.c, s.d, s.e].flatMap fun w => bigEndian 4 w.toNat

/-- The hash of a text of bytes. -/
def hash (text : List UInt8) : List UInt8 :=
  let padded := words (text ++ padding text.length)
  ((blocks (padded.length / 16) padded).foldl compress initial).bytes

end RoomRelay.Sha1
