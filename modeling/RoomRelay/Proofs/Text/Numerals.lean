import Mathlib.Data.Nat.Digits.Lemmas
import RoomRelay.Text.Numeral

/-!
# What numerals denote

A numeral is read from the left and given up at the first character that is no digit or that makes
it too large. What comes of it is said here without the reading: the text consists of digits after
an optional sign, and the number that they denote is in range.

## Main definitions

* `Numeral.Digits` — the number that digits denote
* `Numeral.Denotes`, `Numeral.DenotesInt` — the number that a numeral denotes

## Main results

* `Numeral.natural_eq_ok_iff` — a numeral is read if it denotes a number up to the bound
* `Numeral.signed_eq_ok_iff` — the same with a sign
-/

namespace RoomRelay.Numeral

/-- One or more ASCII digits denote a number. -/
def Digits (cs : List Char) (n : Nat) : Prop :=
  cs ≠ [] ∧ (∀ c ∈ cs, c.isDigit = true) ∧ Nat.ofDigitChars 10 cs 0 = n

/-- A text of digits, perhaps after a plus sign, denotes a number. -/
def Denotes (text : String) (n : Nat) : Prop :=
  ∃ cs, (text.toList = cs ∨ text.toList = '+' :: cs) ∧ Digits cs n

/-- A text of digits, perhaps after a sign, denotes an integer. -/
def DenotesInt (text : String) (z : Int) : Prop :=
  (∃ n : Nat, Denotes text n ∧ z = n) ∨ ∃ cs n, text.toList = '-' :: cs ∧ Digits cs n ∧ z = -n

variable {greatest value n : Nat} {excess : Fault} {cs : List Char} {text : String}

/-- More digits never make a number smaller. -/
theorem le_ofDigitChars (ds : List Char) (value : Nat) :
    value ≤ Nat.ofDigitChars 10 ds value := by
  induction ds generalizing value with
  | nil => simp [Nat.ofDigitChars]
  | cons d ds ih =>
    have := ih (10 * value + (d.toNat - '0'.toNat))
    rw [Nat.ofDigitChars_cons]
    omega

theorem digit?_eq (c : Char) :
    digit? c = if c.isDigit then some (c.toNat - '0'.toNat) else none := by
  simp [digit?, Char.isDigit, Char.le_def, UInt32.le_iff_toNat_le]

/-- Digits are read as long as what they denote is in range. -/
theorem digitsFrom_eq_ok_iff (h : value ≤ greatest) :
    digitsFrom greatest excess value cs = .ok n ↔
      (∀ c ∈ cs, c.isDigit = true) ∧ Nat.ofDigitChars 10 cs value = n ∧ n ≤ greatest := by
  induction cs generalizing value with
  | nil =>
    simp only [digitsFrom, Except.ok.injEq, Nat.ofDigitChars_nil]
    constructor
    · rintro rfl
      exact ⟨by simp, rfl, h⟩
    · exact fun h => h.2.1
  | cons c cs ih =>
    rw [digitsFrom, digit?_eq, List.forall_mem_cons, Nat.ofDigitChars_cons]
    cases hdigit : c.isDigit with
    | false => simp
    | true =>
      have hcomm : value * 10 + (c.toNat - '0'.toNat) = 10 * value + (c.toNat - '0'.toNat) := by
        omega
      simp only [if_true, hcomm, true_and]
      split
      · next hle => exact ih hle
      · next hgt =>
        -- What is too large already only grows.
        refine iff_of_false (by simp) ?_
        rintro ⟨-, rfl, hle⟩
        exact hgt (Nat.le_trans (le_ofDigitChars cs _) hle)

theorem digits_eq_ok_iff :
    digits greatest excess cs = .ok n ↔ Digits cs n ∧ n ≤ greatest := by
  rw [digits]
  split
  · next hempty =>
    refine iff_of_false (by simp) ?_
    rintro ⟨⟨hne, -⟩, -⟩
    exact hne (List.isEmpty_iff.mp hempty)
  · next hempty =>
    rw [digitsFrom_eq_ok_iff (Nat.zero_le greatest), Digits, and_assoc, and_assoc]
    simpa using fun _ _ _ h => hempty (List.isEmpty_iff.mpr h)

/-- A sign is no digit. -/
theorem not_digits_cons {c : Char} (h : c.isDigit = false) : ¬ Digits (c :: cs) n := by
  rintro ⟨-, hall, -⟩
  exact absurd ((hall c List.mem_cons_self).symm.trans h) (by simp)

/-- A text is read as a number up to a bound if it is a numeral of such a number. -/
theorem natural_eq_ok_iff : natural greatest text = .ok n ↔ Denotes text n ∧ n ≤ greatest := by
  unfold natural Denotes
  split
  · next htext =>
    simp [htext, Digits]
  · next rest htext =>
    have hplus : ¬ Digits ('+' :: rest) n := not_digits_cons rfl
    rw [digits_eq_ok_iff, htext]
    constructor
    · rintro ⟨hdigits, hle⟩
      exact ⟨⟨rest, Or.inr rfl, hdigits⟩, hle⟩
    · rintro ⟨⟨cs, rfl | hcs, hdigits⟩, hle⟩
      · exact absurd hdigits hplus
      · obtain rfl := List.tail_eq_of_cons_eq hcs
        exact ⟨hdigits, hle⟩
  · next hempty hplus =>
    rw [digits_eq_ok_iff]
    constructor
    · rintro ⟨hdigits, hle⟩
      exact ⟨⟨_, Or.inl rfl, hdigits⟩, hle⟩
    · rintro ⟨⟨cs, rfl | hcs, hdigits⟩, hle⟩
      · exact ⟨hdigits, hle⟩
      · exact absurd hcs (hplus cs)

/-- A text denotes at most one number. -/
theorem Denotes.unique {m : Nat} (h : Denotes text n) (h' : Denotes text m) : m = n := by
  have hn : natural (max n m) text = .ok n := natural_eq_ok_iff.mpr ⟨h, Nat.le_max_left n m⟩
  have hm : natural (max n m) text = .ok m := natural_eq_ok_iff.mpr ⟨h', Nat.le_max_right n m⟩
  exact Except.ok.inj (hm.symm.trans hn)

theorem map_eq_ok_iff {α β ε : Type} {f : α → β} {x : Except ε α} {b : β} :
    f <$> x = .ok b ↔ ∃ a, x = .ok a ∧ f a = b := by
  cases x <;> simp [Functor.map, Except.map]

/-- A text without a minus sign in front is read as a number is. -/
theorem signed_of_ne (h : ∀ cs, text.toList ≠ '-' :: cs) :
    signed text = Int.ofNat <$> natural Bits.greatestSigned64 text := by
  unfold signed natural
  generalize text.toList = cs at h ⊢
  split
  · rfl
  · rfl
  · next rest => exact absurd rfl (h rest)
  · next hempty hplus _ => simp only

/-- A text with a minus sign in front. -/
theorem signed_of_eq (h : text.toList = '-' :: cs) :
    signed text = (fun n => -Int.ofNat n) <$> digits Bits.leastSigned64 .tooSmall cs := by
  unfold signed
  simp only [h]

theorem not_denotes_of_eq (h : text.toList = '-' :: cs) : ¬ Denotes text n := by
  rintro ⟨ds, hds | hds, hdigits⟩
  · rw [h] at hds
    exact not_digits_cons rfl (hds ▸ hdigits)
  · rw [h] at hds
    exact absurd hds (by simp)

/-- A text is read as an integer of 64 bits if it is a numeral of such an integer. -/
theorem signed_eq_ok_iff {z : Int} :
    signed text = .ok z ↔
      DenotesInt text z ∧ -9223372036854775808 ≤ z ∧ z ≤ 9223372036854775807 := by
  by_cases hminus : ∃ cs, text.toList = '-' :: cs
  · obtain ⟨cs, htext⟩ := hminus
    rw [signed_of_eq htext, map_eq_ok_iff]
    constructor
    · rintro ⟨n, hn, rfl⟩
      obtain ⟨hdigits, hle⟩ := digits_eq_ok_iff.mp hn
      rw [Bits.leastSigned64] at hle
      refine ⟨Or.inr ⟨cs, n, htext, hdigits, rfl⟩, ?_⟩
      simp only [Int.ofNat_eq_natCast]
      omega
    · rintro ⟨⟨n, hn, -⟩ | ⟨cs', n, hcs, hdigits, rfl⟩, hleast, -⟩
      · -- A sign is no digit.
        exact absurd hn (not_denotes_of_eq htext)
      · obtain rfl : cs = cs' := List.tail_eq_of_cons_eq (htext.symm.trans hcs)
        refine ⟨n, digits_eq_ok_iff.mpr ⟨hdigits, ?_⟩, rfl⟩
        rw [Bits.leastSigned64]
        omega
  · rw [not_exists] at hminus
    rw [signed_of_ne hminus, map_eq_ok_iff]
    constructor
    · rintro ⟨n, hn, rfl⟩
      obtain ⟨hdenotes, hle⟩ := natural_eq_ok_iff.mp hn
      rw [Bits.greatestSigned64] at hle
      refine ⟨Or.inl ⟨n, hdenotes, rfl⟩, ?_⟩
      simp only [Int.ofNat_eq_natCast]
      omega
    · rintro ⟨⟨n, hn, rfl⟩ | ⟨cs, n, hcs, -⟩, -, hgreatest⟩
      · refine ⟨n, natural_eq_ok_iff.mpr ⟨hn, ?_⟩, rfl⟩
        rw [Bits.greatestSigned64]
        omega
      · exact absurd hcs (hminus cs)

end RoomRelay.Numeral
