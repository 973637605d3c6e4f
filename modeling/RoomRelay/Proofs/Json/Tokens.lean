import RoomRelay.Json.Parser
import RoomRelay.Proofs.Json.Tree
import RoomRelay.Proofs.Text.Numerals

/-!
# Reading the tokens of a text

What the readers of single tokens take from a text that spells a document: each takes the token and
leaves what follows. Only whether a reader fails is of interest here, not which fault it reports, so
that a reader is looked at through `run?`.

## Main definitions

* `run?` — the result of a reader and what it leaves, or nothing if it fails
* `Numeral.number?` — the number that a numeral is read as

## Main results

* `run?_string`, `run?_skipString` — a string is read as the characters it spells
* `Numeral.run?_numeral`, `Numeral.run?_skipNumeral` — a numeral is read up to its end
* `Numeral.number?_of_integer?` — an integer of 64 bits is read exactly
* `run?_nextItem_cons`, `run?_nextKey_cons` and others — the punctuation of arrays and objects
-/

namespace RoomRelay.Json

variable {α β : Type}

/-! ### Readers without their faults -/

/-- What a reader makes of an input and what it leaves of it, unless it fails. -/
def run? (reader : Reader α) (input : Input) : Option (α × Input) := (reader input).toOption

section Run

variable (input : Input)

@[simp] theorem run?_pure (a : α) : run? (pure a) input = some (a, input) := rfl

@[simp] theorem run?_bind (reader : Reader α) (next : α → Reader β) :
    run? (reader >>= next) input = (run? reader input).bind fun r => run? (next r.1) r.2 := by
  change Except.toOption (Except.bind _ _) = _
  unfold run?
  cases reader input <;> rfl

@[simp] theorem run?_map (f : α → β) (reader : Reader α) :
    run? (f <$> reader) input = (run? reader input).map fun r => (f r.1, r.2) := by
  rw [map_eq_pure_bind, run?_bind]
  cases run? reader input <;> rfl

@[simp] theorem run?_seqRight (reader : Reader α) (next : Reader β) :
    run? (reader *> next) input = (run? reader input).bind fun r => run? next r.2 := by
  rw [seqRight_eq_bind, run?_bind]

@[simp] theorem run?_seqLeft (reader : Reader α) (next : Reader β) :
    run? (reader <* next) input =
      (run? reader input).bind fun r => (run? next r.2).map fun s => (r.1, s.2) := by
  rw [seqLeft_eq_bind, run?_bind]
  cases run? reader input with
  | none => rfl
  | some r => simp [Option.map_eq_bind]

@[simp] theorem run?_discard (reader : Reader α) :
    run? (discard reader) input = (run? reader input).map fun r => ((), r.2) :=
  run?_map input _ reader

@[simp] theorem run?_fail (cause : Cause) : run? (fail cause : Reader α) input = none := rfl

@[simp] theorem run?_within (step : Step) (reader : Reader α) :
    run? (within step reader) input = run? reader input := by
  simp only [run?, within]
  cases reader input <;> rfl

@[simp] theorem run?_liftM (result : Except Fault α) :
    run? (liftM result : Reader α) input = result.toOption.map (·, input) := by
  cases result <;> rfl

@[simp] theorem run?_get : run? (get : Reader Input) input = some (input, input) := rfl

@[simp] theorem run?_peek : run? peek input = some (input.head?, input) := rfl

@[simp] theorem run?_advance : run? advance input = some ((), input.drop 1) := rfl

@[simp] theorem run?_ite (c : Prop) [Decidable c] (reader reader' : Reader α) :
    run? (if c then reader else reader') input =
      if c then run? reader input else run? reader' input :=
  apply_ite (run? · input) c reader reader'

end Run

/-! ### Blanks and words -/

theorem isBlankSymbol_iff {c : Char} :
    isBlankSymbol (some c) = true ↔ c ∈ [' ', '\n', '\t', '\r'] := by
  simp [isBlankSymbol]

/-- Blanks in front are dropped. -/
theorem run?_blanks_append {b : List Char} (hb : Blanks b) (rest : Input) :
    run? blanks (b.map some ++ rest) = run? blanks rest := by
  have hdrop : (b.map some ++ rest).dropWhile isBlankSymbol = rest.dropWhile isBlankSymbol := by
    apply List.dropWhile_append_of_pos
    rintro s hs
    obtain ⟨c, hc, rfl⟩ := List.mem_map.mp hs
    exact isBlankSymbol_iff.mpr (hb c hc)
  simp only [run?, blanks, hdrop]

/-- A reader that begins by dropping blanks does not see those in front. -/
theorem run?_blanks_bind_append {b : List Char} (hb : Blanks b) (next : Option Symbol → Reader α)
    (rest : Input) :
    run? (blanks >>= next) (b.map some ++ rest) = run? (blanks >>= next) rest := by
  rw [run?_bind, run?_bind, run?_blanks_append hb]

@[simp] theorem run?_blanks_nil : run? blanks [] = some (none, []) := rfl

/-- Anything else is shown. -/
theorem run?_blanks_cons {c : Char} (hc : c ∉ [' ', '\n', '\t', '\r']) (rest : Input) :
    run? blanks (some c :: rest) = some (some (some c), some c :: rest) := by
  have hblank : isBlankSymbol (some c) = false := by
    rw [← Bool.not_eq_true, isBlankSymbol_iff]
    exact hc
  simp [run?, blanks, hblank, Except.toOption]

/-- The letters of a word are taken. -/
@[simp] theorem run?_word (cs : List Char) (rest : Input) :
    run? (word cs) (cs.map some ++ rest) = some ((), rest) := by
  induction cs with
  | nil => rfl
  | cons c cs ih => simpa [word] using ih

/-! ### Strings -/

theorem length_le_byteCount (input : Input) : input.length ≤ input.byteCount := by
  suffices h : ∀ n : Nat, n + input.length ≤ input.foldl (fun n s => n + s.byteCount) n by
    simpa [Input.byteCount] using h 0
  induction input with
  | nil => simp
  | cons s input ih =>
    intro n
    have hs : 1 ≤ s.byteCount := by
      cases s with
      | none => exact Nat.le_refl 1
      | some c => exact c.utf8Size_pos
    have := ih (n + s.byteCount)
    simp only [List.length_cons, List.foldl_cons]
    omega

theorem SpellsDigit.digit? {d : Fin 16} {c : Char} (h : SpellsDigit d c) :
    Hex.digit? c = some d := by
  obtain rfl | rfl := h
  · exact Hex.digit?_char d
  · revert d; decide

/-- The four digits of an escape are read as their number. -/
theorem run?_hexEscape {n : Nat} {cs : List Char} (h : SpellsUnit n cs) (rest : Input) :
    run? hexEscape (cs.map some ++ rest) = some (n, rest) := by
  obtain ⟨ds, hlen, rfl, hds⟩ := h
  have hcs : (cs.map some).length = 4 := by rw [List.length_map, ← hds.length_eq, hlen]
  have htake : (cs.map some ++ rest).take 4 = cs.map some := by
    rw [← hcs, List.take_left]
  have hdrop : (cs.map some ++ rest).drop 4 = rest := by rw [← hcs, List.drop_left]
  have hcount : ¬ Input.byteCount (cs.map some) < 4 := by
    have := length_le_byteCount (cs.map some)
    omega
  have hdigits : (cs.map some).mapM (fun s => s.bind Hex.digit?) = some ds := by
    clear hlen hcs htake hdrop hcount
    induction hds with
    | nil => rfl
    | cons hd _ ih => simp [hd.digit?, ih]
  simp [run?, hexEscape, htake, hdrop, hcount, hdigits, Except.toOption]

theorem shortForms_read : ∀ form ∈ shortForms,
    form.1 ≠ 'u' ∧ shortEscape? form.1 = some form.2 := by
  decide

/-- What follows a backslash is read as the character. -/
theorem run?_escape {c : Char} {cs : List Char} (h : Letter c ('\\' :: cs)) (rest : Input) :
    run? escape (cs.map some ++ rest) = some (c, rest) := by
  cases h with
  | plain _ hne _ => exact absurd rfl hne
  | short hmem =>
    simp [escape, shortForms_read _ hmem]
  | unit hcs =>
    -- No character is a surrogate.
    have hvalid : c.toNat < 0xD800 ∨ 0xDFFF < c.toNat := by
      rcases c.valid with h | h
      · exact .inl h
      · exact .inr h.1
    have hlow : ¬ (0xDC00 ≤ c.toNat ∧ c.toNat ≤ 0xDFFF) := by omega
    have hhigh : ¬ (0xD800 ≤ c.toNat ∧ c.toNat ≤ 0xDBFF) := by omega
    simp [escape, numericEscape, run?_hexEscape hcs, hlow, hhigh, Char.ofNat_toNat]
  | @pair high low cs ds h₁ h₂ h₃ h₄ hc hcs hds =>
    have hlow : ¬ (0xDC00 ≤ high ∧ high ≤ 0xDFFF) := by omega
    have hchar : Char.ofNat ((high - 0xD800) * 0x400 + (low - 0xDC00) + 0x10000) = c := by
      rw [← hc, Char.ofNat_toNat]
    have hcs' := run?_hexEscape hcs (some '\\' :: some 'u' :: (ds.map some ++ rest))
    simp [escape, numericEscape, pairMark, hcs', run?_hexEscape hds, hlow, h₁, h₂, h₃, h₄, hchar]

/-- A character stands as it is or behind a backslash. -/
theorem Letter.plain_or_escaped {c : Char} {part : List Char} (h : Letter c part) :
    (part = [c] ∧ c ≠ '"' ∧ c ≠ '\\' ∧ ¬ c.toNat < 0x20) ∨ ∃ cs, part = '\\' :: cs := by
  cases h with
  | plain h₁ h₂ h₃ => exact .inl ⟨rfl, h₁, h₂, Nat.not_lt.mpr h₃⟩
  | short _ => exact .inr ⟨_, rfl⟩
  | unit _ => exact .inr ⟨_, rfl⟩
  | pair => exact .inr ⟨_, rfl⟩

theorem mapM_some (xs : List α) : xs.mapM some = some xs := by
  induction xs with
  | nil => rfl
  | cons x xs ih => simp [ih]

/-- The rest of a string is read as the characters it spells, after those seen before. -/
theorem run?_stringAfter {cs inner : List Char} (h : Letters cs inner) (seen : List Char)
    (turns : Nat) (hturns : inner.length < turns) (rest : Input) :
    run? (stringAfter turns (seen.reverse.map some)) (inner.map some ++ some '"' :: rest) =
      some (String.ofList (seen ++ cs), rest) := by
  induction h generalizing seen turns with
  | nil =>
    obtain ⟨turns, rfl⟩ := Nat.exists_eq_add_one.mpr hturns
    simp [stringAfter, mapM_some]
  | @cons c cs part inner hc hcs ih =>
    obtain ⟨turns, rfl⟩ := Nat.exists_eq_add_one.mpr (Nat.zero_lt_of_lt hturns)
    have hseen : some c :: seen.reverse.map some = (seen ++ [c]).reverse.map some := by simp
    obtain ⟨rfl, hquote, hslash, hcontrol⟩ | ⟨cs', rfl⟩ := hc.plain_or_escaped
    · have hnext := ih (seen ++ [c]) turns (by simpa using hturns)
      simpa [stringAfter, hquote, hslash, isControl, hcontrol, hseen] using hnext
    · have hnext := ih (seen ++ [c]) turns (by simp at hturns; omega)
      simpa [stringAfter, run?_escape hc, hseen] using hnext

/-- A string is read after its opening mark. -/
theorem run?_string {text : String} {cs : List Char} (h : Quoted text ('"' :: cs)) (rest : Input) :
    run? string (cs.map some ++ rest) = some (text, rest) := by
  obtain ⟨inner, hinner, heq⟩ := h
  obtain rfl : cs = inner ++ ['"'] := List.tail_eq_of_cons_eq heq
  have := run?_stringAfter hinner [] (inner.length + (rest.length + 1) + 1) (by omega) rest
  simpa [run?, string] using this

/-- A numeric escape that nobody wants is passed over. -/
theorem run?_skipStringAfter_unit {n : Nat} {cs : List Char} (h : SpellsUnit n cs) (turns : Nat)
    (rest : Input) :
    run? (skipStringAfter (turns + 1)) (some '\\' :: some 'u' :: (cs.map some ++ rest)) =
      run? (skipStringAfter turns) rest := by
  simp [skipStringAfter, skipEscape, run?_hexEscape h]

/-- The rest of a string that nobody wants is taken up to its closing mark. -/
theorem run?_skipStringAfter {cs inner : List Char} (h : Letters cs inner) (turns : Nat)
    (hturns : inner.length < turns) (rest : Input) :
    run? (skipStringAfter turns) (inner.map some ++ some '"' :: rest) = some ((), rest) := by
  induction h generalizing turns with
  | nil =>
    obtain ⟨turns, rfl⟩ := Nat.exists_eq_add_one.mpr hturns
    simp [skipStringAfter]
  | @cons c cs part inner hc hcs ih =>
    obtain ⟨turns, rfl⟩ := Nat.exists_eq_add_one.mpr (Nat.zero_lt_of_lt hturns)
    simp only [List.length_append] at hturns
    cases hc with
    | plain hquote hslash hcontrol =>
      have hnext := ih turns (by simpa [Nat.add_comm] using hturns)
      simpa [skipStringAfter, hquote, hslash, isControl, Nat.not_lt.mpr hcontrol] using hnext
    | short hmem =>
      have hnext := ih turns (by simp at hturns; omega)
      simpa [skipStringAfter, skipEscape, shortForms_read _ hmem] using hnext
    | unit hunit =>
      have hnext := ih turns (by simp at hturns; omega)
      simpa [run?_skipStringAfter_unit hunit] using hnext
    | pair _ _ _ _ _ hhigh hlow =>
      -- A pair is two escapes to a reader that does not want it.
      obtain ⟨turns, rfl⟩ := Nat.exists_eq_add_one.mpr
        (show 0 < turns by simp at hturns; omega)
      have hnext := ih turns (by simp at hturns; omega)
      simpa [run?_skipStringAfter_unit hhigh, run?_skipStringAfter_unit hlow] using hnext

/-- A string that nobody wants is taken after its opening mark. -/
theorem run?_skipString {text : String} {cs : List Char} (h : Quoted text ('"' :: cs))
    (rest : Input) : run? skipString (cs.map some ++ rest) = some ((), rest) := by
  obtain ⟨inner, hinner, heq⟩ := h
  obtain rfl : cs = inner ++ ['"'] := List.tail_eq_of_cons_eq heq
  have := run?_skipStringAfter hinner (inner.length + (rest.length + 1) + 1) (by omega) rest
  simpa [run?, skipString] using this

/-! ### Numerals -/

/-- The value of a decimal digit. -/
def digitValue (c : Char) : Nat := c.toNat - '0'.toNat

theorem digit?_some (c : Char) :
    digit? (some c) = if c.isDigit then some (digitValue c) else none := by
  simp [digit?, Char.isDigit, digitValue, Char.le_def, UInt32.le_iff_toNat_le]

theorem digit?_of_isDigit {c : Char} (h : c.isDigit = true) :
    digit? (some c) = some (digitValue c) := by
  rw [digit?_some, if_pos h]

theorem digit?_of_not_isDigit {c : Char} (h : c.isDigit = false) : digit? (some c) = none := by
  rw [digit?_some, h, if_neg Bool.false_ne_true]

/-- What follows begins with no digit. -/
def NoDigit (rest : Input) : Prop := ∀ s ∈ rest.head?, digit? s = none

/-- What follows cannot belong to a numeral in front of it. -/
def Ends (rest : Input) : Prop :=
  ∀ c, rest.head? = some (some c) → c.isDigit = false ∧ c ≠ '.' ∧ c ≠ 'e' ∧ c ≠ 'E'

theorem Ends.noDigit {rest : Input} (h : Ends rest) : NoDigit rest := by
  rintro (_ | c) hs
  · rfl
  · exact digit?_of_not_isDigit (h c hs).1

theorem noDigit_cons {c : Char} (h : c.isDigit = false) (rest : Input) :
    NoDigit (some c :: rest) := by
  intro s hs
  obtain rfl : some c = s := by simpa using hs
  exact digit?_of_not_isDigit h

/-- Digits are taken up to what follows. -/
theorem run?_digits {ds : List Char} (hds : ∀ c ∈ ds, c.isDigit = true) {rest : Input}
    (hrest : NoDigit rest) :
    run? digits (ds.map some ++ rest) = some (ds.map digitValue, rest) := by
  have htake : (ds.map some ++ rest).takeWhile (digit? · |>.isSome) = ds.map some ∧
      (ds.map some ++ rest).dropWhile (digit? · |>.isSome) = rest := by
    have hall : ∀ s ∈ ds.map some, (digit? s).isSome = true := by
      simpa using fun c hc => by rw [digit?_of_isDigit (hds c hc)]; rfl
    rw [List.takeWhile_append_of_pos hall, List.dropWhile_append_of_pos hall]
    cases rest with
    | nil => simp
    | cons s rest => simp [hrest s rfl]
  have hvalues : (ds.map some).filterMap digit? = ds.map digitValue := by
    rw [List.filterMap_map]
    exact List.filterMap_eq_map_iff_forall_eq_some.mpr fun c hc => digit?_of_isDigit (hds c hc)
  simp [run?, digits, digitRun, htake, hvalues, Except.toOption]

theorem run?_someDigits {ds : List Char} (hds : AreDigits ds) {rest : Input}
    (hrest : NoDigit rest) :
    run? someDigits (ds.map some ++ rest) = some (ds.map digitValue, rest) := by
  simp [someDigits, run?_digits hds.2 hrest, hds.1]

theorem run?_skipDigits {ds : List Char} (hds : AreDigits ds) {rest : Input}
    (hrest : NoDigit rest) : run? skipDigits (ds.map some ++ rest) = some ((), rest) := by
  simp [skipDigits, run?_digits hds.2 hrest, hds.1]

/-- A digit with the value zero is a zero. -/
theorem eq_zero_of_digitValue {c : Char} (h : c.isDigit = true) (hzero : digitValue c = 0) :
    c = '0' := by
  simp only [Char.isDigit, Bool.and_eq_true, decide_eq_true_eq, ge_iff_le,
    UInt32.le_iff_toNat_le] at h
  simp only [digitValue, Char.toNat] at hzero
  exact Char.ext (UInt32.toNat_inj.mp (by simp at h hzero ⊢; omega))

namespace Numeral

variable (n : Numeral)

theorem whole_eq_cons : ∃ c cs, n.whole = c :: cs ∧ c.isDigit = true := by
  obtain ⟨hne, hdigits⟩ := n.whole_areDigits
  obtain ⟨c, cs, hwhole⟩ := List.exists_cons_of_ne_nil hne
  exact ⟨c, cs, hwhole, hdigits c (by simp [hwhole])⟩

/-- The digits before the point begin with a zero that stands alone, or with another digit. -/
theorem whole_cases : n.whole = ['0'] ∨
    ∃ c cs, n.whole = c :: cs ∧ c.isDigit = true ∧ digitValue c ≠ 0 := by
  obtain ⟨c, cs, hwhole, hc⟩ := n.whole_eq_cons
  by_cases hzero : digitValue c = 0
  · exact .inl (n.whole_zero (by rw [hwhole, eq_zero_of_digitValue hc hzero]; rfl))
  · exact .inr ⟨c, cs, hwhole, hc, hzero⟩

theorem run?_integerPart {rest : Input} (hrest : NoDigit rest) :
    run? integerPart (n.whole.map some ++ rest) = some (n.whole.map digitValue, rest) := by
  obtain hwhole | ⟨c, cs, hwhole, hc, hne⟩ := n.whole_cases
  · have hzero : digit? (some '0') = some 0 := by decide
    cases rest with
    | nil => simp [integerPart, hwhole, hzero, digitValue]
    | cons s rest => simp [integerPart, hwhole, hzero, digitValue, hrest s rfl]
  · have hdigits := run?_digits n.whole_areDigits.2 hrest
    rw [hwhole] at hdigits ⊢
    simp only [List.map_cons, List.cons_append] at hdigits ⊢
    simp [integerPart, digit?_of_isDigit hc, hdigits]

/-- The digits after the point as they are read. -/
def fractionDigits : Option (List Nat) := n.fraction.map (List.map digitValue)

theorem run?_fractionPart {rest : Input} (hrest : NoDigit rest)
    (hpoint : rest.head? ≠ some (some '.')) :
    run? fractionPart ((n.fraction.elim [] ('.' :: ·)).map some ++ rest) =
      some (n.fractionDigits, rest) := by
  have hdigits := n.fraction_areDigits
  unfold fractionDigits
  cases hfraction : n.fraction with
  | some ds => simp [fractionPart, run?_someDigits (hdigits ds hfraction) hrest]
  | none =>
    simp only [Option.elim, List.map_nil, List.nil_append, fractionPart, run?_bind, run?_peek,
      Option.bind_some]
    rfl

/-- The power of ten as it is read. -/
def Power.exponent (p : Power) : Int :=
  let magnitude : Nat := (p.digits.map digitValue).foldl (fun n d => n * 10 + d) 0
  if p.sign = some '-' then -magnitude else magnitude

theorem Power.run?_exponent (p : Power) {rest : Input} (hrest : NoDigit rest) :
    run? Json.exponent ((p.sign.toList ++ p.digits).map some ++ rest) =
      some (p.exponent, rest) := by
  have hdigits := run?_someDigits p.areDigits hrest
  cases hsign : p.sign with
  | some c =>
    obtain rfl | rfl := p.sign_mem c hsign <;>
      simp [Json.exponent, Power.exponent, hdigits, hsign]
  | none =>
    obtain ⟨c, cs, hcs⟩ := List.exists_cons_of_ne_nil p.areDigits.1
    have hc := p.areDigits.2 c (by simp [hcs])
    have hplus : some (some c) ≠ some (some '+') := by rintro ⟨⟩; simp at hc
    have hminus : some (some c) ≠ some (some '-') := by rintro ⟨⟩; simp at hc
    rw [hcs] at hdigits
    simp only [List.map_cons, List.cons_append] at hdigits
    simp [Json.exponent, Power.exponent, hsign, hcs, hdigits]

theorem run?_exponentPart {rest : Input} (hrest : Ends rest) :
    run? exponentPart ((n.power.elim [] Power.chars).map some ++ rest) =
      some (n.power.map Power.exponent, rest) := by
  cases n.power with
  | some p =>
    have hexponent := p.run?_exponent hrest.noDigit
    rw [List.map_append, List.append_assoc] at hexponent
    obtain hletter | hletter := p.letter_mem <;>
      simp [exponentPart, Power.chars, hletter, hexponent]
  | none =>
    rcases rest with _ | ⟨_ | c, rest⟩
    · simp [exponentPart]
    · simp [exponentPart]
    · obtain ⟨-, -, he, hE⟩ := hrest c rfl
      simp [exponentPart, he, hE]

/-- The power of ten does not begin like the other parts. -/
theorem power_head {rest : Input} (hrest : Ends rest) :
    NoDigit ((n.power.elim [] Power.chars).map some ++ rest) ∧
      ((n.power.elim [] Power.chars).map some ++ rest).head? ≠ some (some '.') := by
  cases n.power with
  | some p =>
    have hdigit : p.letter.isDigit = false ∧ p.letter ≠ '.' := by
      obtain h | h := p.letter_mem <;> rw [h] <;> decide
    exact ⟨noDigit_cons hdigit.1 _, by simpa [Power.chars] using hdigit.2⟩
  | none => exact ⟨hrest.noDigit, fun h => (hrest '.' h).2.1 rfl⟩

/-- What follows the digits before the point does not begin with a digit. -/
theorem noDigit_tail {rest : Input} (hrest : Ends rest) : NoDigit (n.tail.map some ++ rest) := by
  unfold tail
  cases n.fraction with
  | some ds => exact noDigit_cons (by decide) _
  | none => exact (n.power_head hrest).1

/-- The digits before the point and those after it are read one after the other. -/
theorem run?_parts {rest : Input} (hrest : Ends rest) :
    run? integerPart ((n.whole ++ n.tail).map some ++ rest) =
        some (n.whole.map digitValue, n.tail.map some ++ rest) ∧
      run? fractionPart (n.tail.map some ++ rest) =
        some (n.fractionDigits, (n.power.elim [] Power.chars).map some ++ rest) := by
  obtain ⟨hdigit, hpoint⟩ := n.power_head hrest
  have hwhole := n.run?_integerPart (n.noDigit_tail hrest)
  have hfraction := n.run?_fractionPart hdigit hpoint
  simp only [tail, List.map_append, List.append_assoc] at hwhole hfraction ⊢
  exact ⟨hwhole, hfraction⟩

/-- The number that is made of a sign and the digits read, unless it is too large. -/
def denoted? (negative : Bool) (whole : List Nat) (fraction : Option (List Nat))
    (power : Option Int) : Option Number :=
  let (value, rest) := Significand.collect 0 whole
  let kept : Significand := ⟨value, rest.length⟩
  let scaled := match fraction with
    | some ds => kept.withFraction ds
    | none => kept
  match fraction, power, exactInteger? negative kept with
  | none, none, some n => some (.int n)
  | _, _, _ =>
    (Significand.toNumber negative ⟨scaled.value, scaled.power + power.getD 0⟩).toOption

/-- A number is made of its parts, which are read one after the other. -/
theorem run?_unsignedNumeral_of_parts (negative : Bool) {whole : List Nat}
    {fraction : Option (List Nat)} {power : Option Int} {input input₁ input₂ rest : Input}
    (hwhole : run? integerPart input = some (whole, input₁))
    (hfraction : run? fractionPart input₁ = some (fraction, input₂))
    (hpower : run? exponentPart input₂ = some (power, rest)) :
    run? (unsignedNumeral negative) input =
      (denoted? negative whole fraction power).map (·, rest) := by
  simp only [unsignedNumeral, denoted?, run?_bind, hwhole, hfraction, hpower, Option.bind_some]
  cases fraction <;> cases power <;> cases exactInteger? negative _ <;> simp

/-- A numeral without its sign is read up to its end, whatever follows. -/
theorem run?_unsignedNumeral (negative : Bool) {rest : Input} (hrest : Ends rest) :
    run? (unsignedNumeral negative) ((n.whole ++ n.tail).map some ++ rest) =
      (denoted? negative (n.whole.map digitValue) n.fractionDigits
        (n.power.map Power.exponent)).map (·, rest) :=
  run?_unsignedNumeral_of_parts negative (n.run?_parts hrest).1 (n.run?_parts hrest).2
    (n.run?_exponentPart hrest)

/-- The number that a numeral is read as, unless it is too large. -/
def number? : Option Number := (run? numeral (n.chars.map some)).map (·.1)

/-- A numeral is read by its sign and then by its parts. -/
theorem run?_numeral_eq (rest : Input) :
    run? numeral (n.chars.map some ++ rest) =
      run? (unsignedNumeral n.negative) ((n.whole ++ n.tail).map some ++ rest) := by
  cases hnegative : n.negative with
  | true => simp [numeral, chars, hnegative]
  | false =>
    obtain ⟨c, cs, hwhole, hc⟩ := n.whole_eq_cons
    have hsign : some (some c) ≠ some (some '-') := by rintro ⟨⟩; simp at hc
    simp [numeral, chars, hnegative, hwhole]

/-- By itself, a numeral is read as what its parts denote. -/
theorem number?_eq : n.number? =
    denoted? n.negative (n.whole.map digitValue) n.fractionDigits (n.power.map Power.exponent) := by
  have hnil : Ends [] := fun c h => absurd h (by simp)
  have halone := n.run?_numeral_eq []
  rw [n.run?_unsignedNumeral n.negative hnil, List.append_nil] at halone
  rw [number?, halone, Option.map_map]
  exact Option.map_id'

/-- A numeral is taken up to its end, and read as the number that it is read as by itself. -/
theorem run?_numeral {rest : Input} (hrest : Ends rest) :
    run? numeral (n.chars.map some ++ rest) = n.number?.map (·, rest) := by
  rw [n.run?_numeral_eq, n.run?_unsignedNumeral n.negative hrest, n.number?_eq]

/-! What is passed over of a numeral that nobody wants, from each of its parts on. -/

/-- The power of ten. -/
def skipPower : Reader Unit := do
  match ← peek with
  | some (some c) =>
    if c = 'e' ∨ c = 'E' then
      advance
      match ← peek with
      | some (some sign) => if sign = '+' ∨ sign = '-' then advance *> skipDigits else skipDigits
      | _ => skipDigits
    else return ()
  | _ => return ()

/-- The digits after the point and what follows. -/
def skipFraction : Reader Unit := do
  match ← peek with
  | some (some '.') =>
    advance
    skipDigits
    skipPower
  | _ => skipPower

/-- The digits before the point and what follows. -/
def skipWhole : Reader Unit := do
  match ← peek with
  | none =>
    fail .badNumber
    skipFraction
  | some symbol =>
    match digit? symbol with
    | none =>
      fail .badNumber
      skipFraction
    | some 0 =>
      advance
      match ← peek with
      | some next =>
        if (digit? next).isSome then
          fail .badNumber
          skipFraction
        else skipFraction
      | none => skipFraction
    | some _ =>
      discard digits
      skipFraction

theorem skipNumeral_eq : skipNumeral = (do
    match ← peek with
    | some (some '-') =>
      advance
      skipWhole
    | _ => skipWhole) := rfl

theorem run?_skipPower {rest : Input} (hrest : Ends rest) :
    run? skipPower ((n.power.elim [] Power.chars).map some ++ rest) = some ((), rest) := by
  cases n.power with
  | some p =>
    have hdigits := run?_skipDigits p.areDigits hrest.noDigit
    cases hsign : p.sign with
    | some c =>
      obtain hletter | hletter := p.letter_mem <;>
        simp [skipPower, Power.chars, hletter, hsign, p.sign_mem c hsign, hdigits]
    | none =>
      obtain ⟨c, cs, hcs⟩ := List.exists_cons_of_ne_nil p.areDigits.1
      have hc := p.areDigits.2 c (by simp [hcs])
      have hsign' : ¬ (c = '+' ∨ c = '-') := by rintro (rfl | rfl) <;> simp at hc
      rw [hcs] at hdigits
      simp only [List.map_cons, List.cons_append] at hdigits
      obtain hletter | hletter := p.letter_mem <;>
        simp [skipPower, Power.chars, hletter, hsign, hcs, hsign', hdigits]
  | none =>
    rcases rest with _ | ⟨_ | c, rest⟩
    · simp [skipPower]
    · simp [skipPower]
    · obtain ⟨-, -, he, hE⟩ := hrest c rfl
      simp [skipPower, he, hE]

theorem run?_skipFraction {rest : Input} (hrest : Ends rest) :
    run? skipFraction (n.tail.map some ++ rest) = some ((), rest) := by
  have hdigits := n.fraction_areDigits
  have hpower := n.run?_skipPower hrest
  obtain ⟨hdigit, hpoint⟩ := n.power_head hrest
  rw [tail, List.map_append, List.append_assoc]
  cases hfraction : n.fraction with
  | some ds => simp [skipFraction, run?_skipDigits (hdigits ds hfraction) hdigit, hpower]
  | none =>
    change run? skipFraction ((n.power.elim [] Power.chars).map some ++ rest) = _
    simp only [skipFraction, run?_bind, run?_peek, Option.bind_some]
    exact hpower

theorem run?_skipWhole {rest : Input} (hrest : Ends rest) :
    run? skipWhole ((n.whole ++ n.tail).map some ++ rest) = some ((), rest) := by
  have hfraction := n.run?_skipFraction hrest
  have hdigit := n.noDigit_tail hrest
  rw [List.map_append, List.append_assoc]
  obtain hwhole | ⟨c, cs, hwhole, hc, hne⟩ := n.whole_cases
  · have hzero : digit? (some '0') = some 0 := by decide
    cases hnext : n.tail.map some ++ rest with
    | nil =>
      rw [hnext] at hfraction
      simp [skipWhole, hwhole, hzero, hfraction]
    | cons s more =>
      rw [hnext] at hfraction hdigit
      simp [skipWhole, hwhole, hzero, hfraction, hdigit s rfl]
  · have hdigits := run?_digits n.whole_areDigits.2 hdigit
    rw [hwhole] at hdigits ⊢
    simp only [List.map_cons, List.cons_append] at hdigits ⊢
    simp [skipWhole, digit?_of_isDigit hc, hdigits, hfraction]

/-- A numeral that nobody wants is taken up to its end. -/
theorem run?_skipNumeral {rest : Input} (hrest : Ends rest) :
    run? skipNumeral (n.chars.map some ++ rest) = some ((), rest) := by
  have hwhole := n.run?_skipWhole hrest
  rw [skipNumeral_eq]
  cases hnegative : n.negative with
  | true => simpa [chars, hnegative] using hwhole
  | false =>
    obtain ⟨c, cs, hcs, hc⟩ := n.whole_eq_cons
    have hsign : some (some c) ≠ some (some '-') := by rintro ⟨⟩; simp at hc
    simpa [chars, hnegative, hcs] using hwhole

/-- Digits that denote a number of 64 bits are all kept. -/
theorem collect_of_le (ds : List Char) (value : Nat)
    (h : Nat.ofDigitChars 10 ds value ≤ Bits.greatest64) :
    Significand.collect value (ds.map digitValue) = (Nat.ofDigitChars 10 ds value, []) := by
  induction ds generalizing value with
  | nil => rfl
  | cons d ds ih =>
    rw [Nat.ofDigitChars_cons, Nat.mul_comm] at h ⊢
    have hle : value * 10 + digitValue d ≤ Bits.greatest64 :=
      Nat.le_trans (RoomRelay.Numeral.le_ofDigitChars ds _) h
    rw [List.map_cons, Significand.collect, if_pos hle]
    exact ih _ h

theorem exactInteger?_of_integer? {x : Number} (h : n.integer? = some x) :
    n.tail = [] ∧ n.magnitude ≤ Bits.greatest64 ∧
      (exactInteger? n.negative ⟨n.magnitude, 0⟩).map .int = some x := by
  unfold integer? at h
  split at h
  case isFalse => cases h
  case isTrue hint =>
    obtain ⟨htail, hzero, hleast, hgreatest⟩ := hint
    obtain rfl : Number.int n.toInt = x := Option.some.inj h
    refine ⟨htail, ?_⟩
    cases hnegative : n.negative with
    | true =>
      have hpositive := hzero hnegative
      simp only [toInt, hnegative, if_true] at hleast
      have hrange : 0 < n.magnitude ∧ n.magnitude ≤ Bits.leastSigned64 := by
        unfold Bits.leastSigned64
        omega
      refine ⟨Nat.le_trans hrange.2 (by decide), ?_⟩
      simp [exactInteger?, toInt, hnegative, hrange]
    | false =>
      simp only [toInt, hnegative, Bool.false_eq_true, if_false] at hgreatest
      refine ⟨by unfold Bits.greatest64; omega, ?_⟩
      simp [exactInteger?, toInt, hnegative]

/-- An integer of 64 bits is read exactly. -/
theorem number?_of_integer? {x : Number} (h : n.integer? = some x) : n.number? = some x := by
  obtain ⟨htail, hfits, hexact⟩ := n.exactInteger?_of_integer? h
  have hnil : Ends [] := fun c h => absurd h (by simp)
  have hcollect := collect_of_le n.whole 0 hfits
  have hwhole := n.run?_integerPart hnil.noDigit
  have hchars := n.run?_numeral_eq []
  simp only [htail, List.append_nil] at hchars hwhole
  rw [number?, hchars]
  obtain ⟨i, hi, rfl⟩ := Option.map_eq_some_iff.mp hexact
  rw [magnitude] at hi
  simp [unsignedNumeral, hwhole, hcollect, fractionPart, exponentPart, hi]

end Numeral

/-! ### Arrays and objects -/

/-- The characters with which a tree begins. -/
def Tree.Opens : Tree → Char → Prop
  | .null, c => c = 'n'
  | .bool true, c => c = 't'
  | .bool false, c => c = 'f'
  | .number _, c => c = '-' ∨ c.isDigit = true
  | .string _, c => c = '"'
  | .array _, c => c = '['
  | .object _, c => c = '\x7b'

theorem Spells.opens {tree : Tree} {cs : List Char} (h : Spells tree cs) :
    ∃ c more, cs = c :: more ∧ tree.Opens c := by
  cases h with
  | @number n =>
    obtain ⟨c, cs, hwhole, hc⟩ := n.whole_eq_cons
    cases hnegative : n.negative with
    | true => exact ⟨'-', n.whole ++ n.tail, by simp [Numeral.chars, hnegative], .inl rfl⟩
    | false => exact ⟨c, cs ++ n.tail, by simp [Numeral.chars, hnegative, hwhole], .inr hc⟩
  | string hquoted =>
    obtain ⟨inner, -, rfl⟩ := hquoted
    exact ⟨'"', inner ++ ['"'], rfl, rfl⟩
  | null | true | false | array _ | object _ => exact ⟨_, _, rfl, rfl⟩

/-- A tree begins with no blank and with no mark between or behind items. -/
theorem Tree.Opens.not_mem {tree : Tree} {c : Char} (h : tree.Opens c) :
    c ∉ [' ', '\n', '\t', '\r'] ∧ c ≠ ']' ∧ c ≠ ',' := by
  rcases tree with _ | (_ | _) | _ | _ | _ | _
  case number =>
    obtain rfl | hc := h
    · decide
    · refine ⟨fun hmem => ?_, by rintro rfl; simp at hc, by rintro rfl; simp at hc⟩
      simp only [List.mem_cons, List.not_mem_nil, or_false] at hmem
      obtain rfl | rfl | rfl | rfl := hmem <;> simp at hc
  all_goals
    obtain rfl := h
    decide

variable {first : Bool} {lead b cs : List Char}

/-- What leads to an item is taken, whatever the item begins with. -/
theorem run?_nextItem_lead (hlead : Lead first lead) {c : Char}
    (hblank : c ∉ [' ', '\n', '\t', '\r']) (hclose : c ≠ ']') (rest : Input) :
    run? (nextItem first) (lead.map some ++ some c :: rest) = some (true, some c :: rest) := by
  have hshown := run?_blanks_cons hblank rest
  have hclose' : (some c : Symbol) ≠ some ']' := by simpa using hclose
  cases hlead with
  | first hb => simp [nextItem, run?_blanks_append hb, hshown]
  | @next b b' hb hb' =>
    have hcomma := run?_blanks_cons (c := ',') (by decide)
    simp [nextItem, run?_blanks_append hb, run?_blanks_append hb', hcomma, hshown]

/-- Before an item, what leads to it is taken. -/
theorem run?_nextItem_cons (hlead : Lead first lead) {tree : Tree} (hcs : Spells tree cs)
    (rest : Input) :
    run? (nextItem first) (lead.map some ++ (cs.map some ++ rest)) =
      some (true, cs.map some ++ rest) := by
  obtain ⟨c, more, rfl, hopens⟩ := hcs.opens
  obtain ⟨hblank, hclose, -⟩ := hopens.not_mem
  exact run?_nextItem_lead hlead hblank hclose (more.map some ++ rest)

/-- The closing bracket is seen and left. -/
theorem run?_nextItem_nil (first : Bool) (hb : Blanks b) (rest : Input) :
    run? (nextItem first) (b.map some ++ some ']' :: rest) = some (false, some ']' :: rest) := by
  simp [nextItem, run?_blanks_append hb, run?_blanks_cons (c := ']') (by decide)]

/-- What leads to a key is taken, and the key is read as a string. -/
theorem run?_nextKey_lead (hlead : Lead first lead) (rest : Input) :
    run? (nextKey first) (lead.map some ++ some '"' :: rest) =
      (run? string rest).map fun r => (some r.1, r.2) := by
  have hmark := run?_blanks_cons (c := '"') (by decide) rest
  have hcomma := run?_blanks_cons (c := ',') (by decide)
  cases hlead with
  | first hb => simp [nextKey, run?_blanks_append hb, hmark]
  | @next b b' hb hb' =>
    simp [nextKey, Json.key, run?_blanks_append hb, run?_blanks_append hb', hcomma, hmark]

/-- A key is taken with what leads to it. -/
theorem run?_nextKey_cons (hlead : Lead first lead) {key : String} {name : List Char}
    (hname : Quoted key name) (rest : Input) :
    run? (nextKey first) (lead.map some ++ (name.map some ++ rest)) = some (some key, rest) := by
  obtain ⟨inner, hinner, rfl⟩ := hname
  have hread := run?_string ⟨inner, hinner, rfl⟩ rest
  rw [List.map_cons, List.cons_append, run?_nextKey_lead hlead, hread, Option.map_some]

/-- The closing brace is seen and left. -/
theorem run?_nextKey_nil (first : Bool) (hb : Blanks b) (rest : Input) :
    run? (nextKey first) (b.map some ++ some '\x7d' :: rest) =
      some (none, some '\x7d' :: rest) := by
  simp [nextKey, run?_blanks_append hb, run?_blanks_cons (c := '\x7d') (by decide)]

theorem run?_colon (hb : Blanks b) (rest : Input) :
    run? colon (b.map some ++ some ':' :: rest) = some ((), rest) := by
  simp [colon, run?_blanks_append hb, run?_blanks_cons (c := ':') (by decide)]

theorem run?_closeList (hb : Blanks b) (rest : Input) :
    run? closeList (b.map some ++ some ']' :: rest) = some ((), rest) := by
  simp [closeList, run?_blanks_append hb, run?_blanks_cons (c := ']') (by decide)]

/-- An array is not closed where another item follows. -/
theorem run?_closeList_lead (hlead : Lead first lead) {c : Char}
    (hblank : c ∉ [' ', '\n', '\t', '\r']) (hclose : c ≠ ']') (hcomma : c ≠ ',') (rest : Input) :
    run? closeList (lead.map some ++ some c :: rest) = none := by
  have hshown := run?_blanks_cons hblank rest
  cases hlead with
  | first hb =>
    have hclose' : (some c : Symbol) ≠ some ']' := by simpa using hclose
    have hcomma' : (some c : Symbol) ≠ some ',' := by simpa using hcomma
    simp [closeList, run?_blanks_append hb, hshown]
  | next hb hb' =>
    have hmark := run?_blanks_cons (c := ',') (by decide)
    have hclose' : some (some c) ≠ some (some ']') := by simpa using hclose
    simp [closeList, run?_blanks_append hb, run?_blanks_append hb', hmark, hshown]

theorem run?_closeObject (hb : Blanks b) (rest : Input) :
    run? closeObject (b.map some ++ some '\x7d' :: rest) = some ((), rest) := by
  simp [closeObject, run?_blanks_append hb, run?_blanks_cons (c := '\x7d') (by decide)]

end RoomRelay.Json
