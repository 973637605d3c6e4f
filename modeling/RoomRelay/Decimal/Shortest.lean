import RoomRelay.Decimal.Double

/-!
# The shortest decimal that reads back

A floating-point number is written with the fewest digits that still tell it from its neighbours,
and among those decimals the one nearest to it.

The reals that round to a number form an interval around it, whose ends belong to it when the
significand is even. On the grid of the multiples of a power of ten, if any point lies in the
interval then so does one of the two neighbours of the number itself; so grids are tried from
coarse to fine.

## Main definitions

* `Decimal.Scientific` — digits and the position of the decimal point
* `Decimal.shortest` — the shortest decimal of a positive number
* `Decimal.render` — the text: positional where the point falls near the digits, else with an
  exponent, and always with a mark that tells it from an integer
-/

namespace RoomRelay.Decimal

/-- The decimal `0.d₁d₂…dₙ * 10 ^ point`, with `d₁` not zero unless it is the only digit. -/
structure Scientific where
  /-- The digits as an integer. -/
  digits : Nat
  /-- How many digits stand before the decimal point. -/
  point : Int
  deriving DecidableEq

/-- A positive number as a quotient, with the interval of the reals that round to it, all over one
denominator. -/
structure Neighbourhood where
  /-- The lower end. -/
  low : Nat
  /-- The number itself. -/
  mid : Nat
  /-- The upper end. -/
  high : Nat
  /-- The common denominator. -/
  den : Nat
  /-- Whether the ends belong to the interval. -/
  closed : Bool

/-- The neighbourhood of the magnitude of a number, in quarters of its last binary place. -/
def Neighbourhood.ofDouble (d : Double) : Neighbourhood :=
  let quarter := d.exponent - 2
  let up := Nat.pow 2 quarter.toNat
  let mid := 4 * d.significand
  { low := (if d.closeBelow then mid - 1 else mid - 2) * up
    mid := mid * up
    high := (mid + 2) * up
    den := Nat.pow 2 (-quarter).toNat
    closed := d.significand % 2 = 0 }

/-- Whether `digits * 10 ^ power` lies in the interval. -/
def Neighbourhood.holds (n : Neighbourhood) (digits : Nat) (power : Int) : Bool :=
  let point := digits * Nat.pow 10 power.toNat * n.den
  let scale := Nat.pow 10 (-power).toNat
  if n.closed then n.low * scale ≤ point && point ≤ n.high * scale
  else n.low * scale < point && point < n.high * scale

/-- The multiple of a power of ten next below the number, as a factor of that power. -/
def Neighbourhood.below (n : Neighbourhood) (power : Int) : Nat :=
  n.mid * Nat.pow 10 (-power).toNat / (n.den * Nat.pow 10 power.toNat)

/-- Whether the number is nearer to the multiple below than to the one above; a tie goes to the
even one. -/
def Neighbourhood.nearerBelow (n : Neighbourhood) (digits : Nat) (power : Int) : Bool :=
  let twice := 2 * (n.mid * Nat.pow 10 (-power).toNat)
  let middle := (2 * digits + 1) * (n.den * Nat.pow 10 power.toNat)
  twice < middle || (twice == middle && digits % 2 == 0)

/-- The multiple of a power of ten that lies in the interval and is nearest to the number. -/
def Neighbourhood.onGrid? (n : Neighbourhood) (power : Int) : Option Nat :=
  let digits := n.below power
  match digits ≠ 0 && n.holds digits power, n.holds (digits + 1) power with
  | true, true => some (if n.nearerBelow digits power then digits else digits + 1)
  | true, false => some digits
  | false, true => some (digits + 1)
  | false, false => none

/-- The first hit on the grids from `power` downwards; seventeen digits always suffice. -/
def Neighbourhood.search (n : Neighbourhood) : (grids : Nat) → (power : Int) → Nat × Int
  | 0, power => (n.below power, power)
  | grids + 1, power =>
    match n.onGrid? power with
    | some digits => (digits, power)
    | none => n.search grids (power - 1)

/-- The number of decimal digits of a positive integer. -/
def digitCount (n : Nat) : Nat := (Nat.toDigits 10 n).length

/-- The least power of ten that exceeds the number; at least ten to the power `-400`. -/
def Neighbourhood.ceiling (n : Neighbourhood) : Int :=
  if n.den ≤ n.mid then digitCount (n.mid / n.den)
  else digitCount (n.mid * Nat.pow 10 400 / n.den) - 400

/-- Drops the zeros at the end of the digits. -/
def Scientific.trimmed (s : Scientific) : (digits : Nat) → Scientific
  | 0 => s
  | k + 1 => if s.digits % 10 = 0 ∧ s.digits ≠ 0 then trimmed ⟨s.digits / 10, s.point⟩ k else s

/-- The shortest decimal of the magnitude of a number other than zero. -/
def shortest (d : Double) : Scientific :=
  let n := Neighbourhood.ofDouble d
  let (digits, power) := n.search 18 n.ceiling
  Scientific.trimmed ⟨digits, digitCount digits + power⟩ 20

/-- Where the decimal point falls, it is written: up to sixteen places after the first digit, and
up to five places before it. Any other number gets an exponent. -/
structure Layout where
  /-- The largest number of places before the point that are written out. -/
  most : Int
  /-- The number of places before the point above which leading zeros are written out. -/
  least : Int

/-- The layout of the numbers in a document. -/
def documentLayout : Layout := ⟨16, -5⟩

/-- An exponent with its sign, which is written in any case. -/
def exponentChars (exponent : Int) : List Char :=
  (if exponent < 0 then '-' else '+') :: Nat.toDigits 10 exponent.natAbs

/-- Digits, point and exponent as the layout wants them. -/
def Layout.chars (layout : Layout) (s : Scientific) : List Char :=
  let digits := Nat.toDigits 10 s.digits
  let count : Int := digits.length
  if count ≤ s.point ∧ s.point ≤ layout.most then
    digits ++ List.replicate (s.point - count).toNat '0' ++ ['.', '0']
  else if 0 < s.point ∧ s.point ≤ layout.most then
    digits.take s.point.toNat ++ '.' :: digits.drop s.point.toNat
  else if layout.least < s.point ∧ s.point ≤ 0 then
    '0' :: '.' :: List.replicate (-s.point).toNat '0' ++ digits
  else
    let fraction := if digits.length = 1 then [] else '.' :: digits.drop 1
    digits.take 1 ++ fraction ++ 'e' :: exponentChars (s.point - 1)

/-- The text of a finite number. -/
def render (d : Double) : List Char :=
  let magnitude :=
    if d.significand = 0 then ['0', '.', '0'] else documentLayout.chars (shortest d)
  if d.isNegative then '-' :: magnitude else magnitude

end RoomRelay.Decimal
