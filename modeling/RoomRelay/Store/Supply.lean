import RoomRelay.Timestamp
import RoomRelay.Uuid

/-!
# Fresh identifiers and clock readings

Stores take a new identifier and the time whenever they keep something. Where both come from is left
open: a supply is any sequence of identifiers and any sequence of clock readings.

## Main definitions

* `Supply` — the two sequences and how far they have been used
* `Supply.freshId`, `Supply.stamp` — the next of each
* `Supply.now` — the time, without using a reading up
-/

namespace RoomRelay

/-- Identifiers and clock readings, and how many of each have been used. -/
structure Supply where
  /-- The identifiers in the order in which they are handed out. -/
  ids : Nat → Uuid
  /-- The clock readings in their order. -/
  times : Nat → Timestamp
  /-- How many identifiers have been handed out. -/
  issued : Nat := 0
  /-- How many clock readings have been taken. -/
  readings : Nat := 0

namespace Supply

/-- The next identifier. -/
def freshId (s : Supply) : Uuid × Supply := (s.ids s.issued, { s with issued := s.issued + 1 })

/-- The next clock reading. -/
def stamp (s : Supply) : Timestamp × Supply :=
  (s.times s.readings, { s with readings := s.readings + 1 })

/-- The time, which stays the next clock reading. -/
def now (s : Supply) : Timestamp := s.times s.readings

end Supply

end RoomRelay
