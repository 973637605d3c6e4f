import RoomRelay.Token.Sha256

/-!
# Authentication codes

A code for a text under a key hashes the text twice, each time behind a block made from the key.

## Main definitions

* `Mac.code` — the code, as 32 bytes
-/

namespace RoomRelay.Mac

/-- The size of a block in bytes. -/
def blockSize : Nat := 64

/-- A key that fills a block: one that is longer is hashed, and zeros follow. -/
def blockKey (key : List UInt8) : List UInt8 :=
  let short := if blockSize < key.length then Sha256.hash key else key
  short ++ List.replicate (blockSize - short.length) 0

/-- The code of a text under a key. -/
def code (key text : List UInt8) : List UInt8 :=
  let block := blockKey key
  Sha256.hash (block.map (· ^^^ 0x5c) ++ Sha256.hash (block.map (· ^^^ 0x36) ++ text))

end RoomRelay.Mac
