/-!
# Points in time

Rooms and messages carry the time at which they were made. It is held as seconds since the start of
1970 with nanoseconds, and written as a date and time of day in the Gregorian calendar.

## Main definitions

* `Timestamp` — seconds and nanoseconds, in order
* `Timestamp.Date`, `Timestamp.Date.ofDays` — the calendar date of a day number
* `Timestamp.render` — date and time with as few decimals of the second as are exact
-/

namespace RoomRelay

/-- A point in time. -/
structure Timestamp where
  /-- Seconds since the start of 1970. -/
  seconds : Int
  /-- Nanoseconds into the second; a whole second or more stands for a leap second. -/
  nanos : Nat
  deriving DecidableEq, Inhabited

namespace Timestamp

/-- The first of two points in time comes before the second. -/
protected def lt (a b : Timestamp) : Prop :=
  a.seconds < b.seconds ∨ (a.seconds = b.seconds ∧ a.nanos < b.nanos)

instance : LT Timestamp := ⟨Timestamp.lt⟩

instance (a b : Timestamp) : Decidable (a < b) :=
  inferInstanceAs (Decidable (a.seconds < b.seconds ∨ (a.seconds = b.seconds ∧ a.nanos < b.nanos)))

/-- A calendar date. -/
structure Date where
  /-- The year, where zero is the year before the first. -/
  year : Int
  /-- The month, from one. -/
  month : Nat
  /-- The day of the month, from one. -/
  day : Nat
  deriving DecidableEq

/-- The date of a day counted from the start of 1970. Years are taken to begin in March, so that the
day that only some of them have comes last; 146097 days make 400 years. -/
def Date.ofDays (days : Int) : Date :=
  let shifted := days + 719468
  let era := shifted.fdiv 146097
  let dayOfEra := (shifted.fmod 146097).toNat
  let yearOfEra := (dayOfEra - dayOfEra / 1460 + dayOfEra / 36524 - dayOfEra / 146096) / 365
  let dayOfYear := dayOfEra - (365 * yearOfEra + yearOfEra / 4 - yearOfEra / 100)
  let marchMonth := (5 * dayOfYear + 2) / 153
  let day := dayOfYear - (153 * marchMonth + 2) / 5 + 1
  let month := if marchMonth < 10 then marchMonth + 3 else marchMonth - 9
  let year := era * 400 + yearOfEra + (if month ≤ 2 then 1 else 0)
  ⟨year, month, day⟩

/-- A number with zeros in front of it up to a width. -/
def padded (width n : Nat) : String :=
  let digits := toString n
  String.ofList (List.replicate (width - digits.length) '0') ++ digits

/-- A year in four digits; outside of that range it has a sign. -/
def Date.yearText (year : Int) : String :=
  if 0 ≤ year ∧ year ≤ 9999 then padded 4 year.toNat
  else (if year < 0 then "-" else "+") ++ padded 4 year.natAbs

/-- The decimals of a second: none, three, six or nine. -/
def decimals (nanos : Nat) : String :=
  if nanos = 0 then ""
  else if nanos % 1000000 = 0 then "." ++ padded 3 (nanos / 1000000)
  else if nanos % 1000 = 0 then "." ++ padded 6 (nanos / 1000)
  else "." ++ padded 9 nanos

/-- Date and time of day. A leap second is the second numbered sixty. -/
def render (t : Timestamp) : String :=
  let date := Date.ofDays (t.seconds.fdiv 86400)
  let ofDay := (t.seconds.fmod 86400).toNat
  let leap := t.nanos / 1000000000
  Date.yearText date.year ++ "-" ++ padded 2 date.month ++ "-" ++ padded 2 date.day ++ "T" ++
    padded 2 (ofDay / 3600) ++ ":" ++ padded 2 (ofDay / 60 % 60) ++ ":" ++
    padded 2 (ofDay % 60 + leap) ++ decimals (t.nanos % 1000000000) ++ "Z"

end Timestamp

end RoomRelay
