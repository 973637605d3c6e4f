import RoomRelay.Proofs.Json.Fields
import RoomRelay.Proofs.Json.Outline

/-!
# What is read has been spelt

A reader makes the same of every text that spells a tree. The converse holds as well: where a reader
takes something from an input, whatever the input is, there are blanks and a text that spells a tree
with this meaning, and the rest of the input follows. So nothing is read that is not written in
accordance with the grammar, and what is read says what has been written.

## Main definitions

* `Recognizes` — a reader takes nothing but spellings of trees with a meaning

## Main results

* `quoted_of_run?_string` — what is read as a string spells it
* `Numeral.of_run?_numeral` — what is read as a number is a numeral that denotes it
* `recognizes_value` — what is kept is the value of a tree that is spelt there
-/

namespace RoomRelay.Json

variable {α β : Type} {input rest : Input}

/-! ### Blanks, words and marks -/

/-- What is dropped in front of the next symbol is blank. -/
theorem exists_blanks (input : Input) : ∃ b shown, Blanks b ∧ input = b.map some ++ shown ∧
    run? blanks input = some (shown.head?, shown) := by
  induction input with
  | nil => exact ⟨[], [], blanks_nil, rfl, rfl⟩
  | cons s input ih =>
    obtain ⟨b, shown, hb, rfl, hshown⟩ := ih
    by_cases hs : isBlankSymbol s = true
    · obtain ⟨c, rfl⟩ : ∃ c, s = some c := by
        cases s with
        | none => cases hs
        | some c => exact ⟨c, rfl⟩
      have hc : Blanks [c] := by simpa [Blanks] using isBlankSymbol_iff.mp hs
      refine ⟨c :: b, shown, ?_, rfl, ?_⟩
      · exact List.forall_mem_cons.mpr ⟨hc c (by simp), hb⟩
      · rw [← hshown]
        exact run?_blanks_append hc _
    · refine ⟨[], s :: (b.map some ++ shown), blanks_nil, rfl, ?_⟩
      simp [run?, blanks, hs, Except.toOption]

theorem eq_of_run?_word {cs : List Char} (h : run? (word cs) input = some ((), rest)) :
    input = cs.map some ++ rest := by
  induction cs generalizing input with
  | nil => exact (Prod.mk.inj (Option.some.inj h)).2
  | cons c cs ih =>
    rcases input with _ | ⟨s, input⟩
    · cases h
    · simp only [word, run?_bind, run?_peek, List.head?_cons, Option.bind_some, run?_ite] at h
      split_ifs at h with hs
      · subst hs
        exact congrArg (some c :: ·) (ih h)
      · cases h

/-! ### Strings -/

/-- A hexadecimal digit is one of the two characters for its value. -/
theorem spellsDigit_of_digit? {c : Char} {d : Fin 16} (h : Hex.digit? c = some d) :
    SpellsDigit d c := by
  have htable : ∀ n < 128, ∀ d, Hex.digit? (Char.ofNat n) = some d →
      Char.ofNat n = Hex.char d ∨ Char.ofNat n = (Hex.char d).toUpper := by
    decide +kernel
  have := htable c.toNat (Hex.toNat_lt_of_digit? h) d
  rw [Char.ofNat_toNat] at this
  exact this h

/-- Digits are read from characters that take one byte each. -/
theorem exists_of_digits {symbols : Input} {ds : List (Fin 16)}
    (h : List.Forall₂ (fun s d => s.bind Hex.digit? = some d) symbols ds) :
    ∃ cs, symbols = cs.map some ∧ List.Forall₂ SpellsDigit ds cs ∧
      symbols.byteCount = symbols.length := by
  suffices hcount : ∃ cs, symbols = cs.map some ∧ List.Forall₂ SpellsDigit ds cs ∧
      ∀ n : Nat, symbols.foldl (fun n s => n + s.byteCount) n = n + symbols.length by
    obtain ⟨cs, hcs, hds, hn⟩ := hcount
    exact ⟨cs, hcs, hds, (hn 0).trans (Nat.zero_add _)⟩
  induction h with
  | nil => exact ⟨[], rfl, .nil, fun n => rfl⟩
  | @cons s d symbols ds hd _ ih =>
    obtain ⟨cs, rfl, hds, hn⟩ := ih
    obtain ⟨c, rfl, hc⟩ := Option.bind_eq_some_iff.mp hd
    refine ⟨c :: cs, rfl, .cons (spellsDigit_of_digit? hc) hds, fun n => ?_⟩
    have hsize : c.utf8Size = 1 := Char.utf8Size_eq_one_iff.mpr
      (UInt32.le_iff_toNat_le.mpr (Nat.le_of_lt_succ (Hex.toNat_lt_of_digit? hc)))
    rw [List.foldl_cons, hn, Symbol.byteCount, hsize, List.length_cons]
    omega

/-- What is read as the four digits of an escape are four digits. -/
theorem spellsUnit_of_run?_hexEscape {n : Nat} (h : run? hexEscape input = some (n, rest)) :
    ∃ cs, SpellsUnit n cs ∧ input = cs.map some ++ rest := by
  unfold run? hexEscape at h
  split_ifs at h with hcount
  · cases h
  · split at h
    · next ds hds =>
      obtain ⟨rfl, rfl⟩ := Prod.mk.inj (Option.some.inj h)
      obtain ⟨cs, hcs, hspells, hlength⟩ := exists_of_digits (mapM_eq_some_iff.mp hds)
      -- Four bytes were counted, and each digit takes one of them.
      have hfour : ds.length = 4 := by
        have htake : (input.take 4).length ≤ 4 := List.length_take_le 4 input
        have hlen : ds.length = (input.take 4).length := by
          rw [hspells.length_eq, hcs, List.length_map]
        omega
      exact ⟨cs, ⟨ds, hfour, rfl, hspells⟩, by rw [← hcs, List.take_append_drop]⟩
    · cases h

theorem mem_shortForms {letter c : Char} (h : shortEscape? letter = some c) :
    (letter, c) ∈ shortForms := by
  unfold shortEscape? at h
  split at h <;> cases h <;> decide

theorem eq_of_run?_pairMark {c : Char} (h : run? (pairMark c) input = some ((), rest)) :
    input = some c :: rest := by
  rcases input with _ | ⟨s, input⟩
  · cases h
  · simp only [pairMark, run?_bind, run?_peek, List.head?_cons, Option.bind_some, run?_ite] at h
    split_ifs at h with hs
    · subst hs
      exact congrArg (some c :: ·) (Prod.mk.inj (Option.some.inj h)).2
    · cases h

/-- What is read as the digits behind `\u` is a letter. -/
theorem letter_of_run?_numericEscape {c : Char} (h : run? numericEscape input = some (c, rest)) :
    ∃ cs, Letter c ('\\' :: 'u' :: cs) ∧ input = cs.map some ++ rest := by
  simp only [numericEscape, run?_bind, Option.bind_eq_some_iff] at h
  obtain ⟨⟨first, input'⟩, hfirst, h⟩ := h
  obtain ⟨cs, hcs, rfl⟩ := spellsUnit_of_run?_hexEscape hfirst
  simp only [run?_ite, run?_bind, run?_pure, run?_fail] at h
  split_ifs at h with hlow hhigh
  · -- The first half of a pair: the second half must follow.
    simp only [Option.bind_eq_some_iff] at h
    obtain ⟨⟨_, input₁⟩, hslash, ⟨_, input₂⟩, hu, ⟨second, input₃⟩, hsecond, h⟩ := h
    obtain rfl := eq_of_run?_pairMark hslash
    obtain rfl := eq_of_run?_pairMark hu
    obtain ⟨ds, hds, rfl⟩ := spellsUnit_of_run?_hexEscape hsecond
    split_ifs at h with hrange
    obtain ⟨rfl, rfl⟩ := Prod.mk.inj (Option.some.inj h)
    refine ⟨_, .pair hhigh.1 hhigh.2 hrange.1 hrange.2 ?_ hcs hds, by simp⟩
    exact toNat_charOfNat (.inr (by omega))
  · obtain ⟨rfl, rfl⟩ := Prod.mk.inj (Option.some.inj h)
    have hlt := hcs.lt
    have hvalid : first.isValidChar := by
      unfold Nat.isValidChar
      omega
    exact ⟨cs, .unit (by rwa [toNat_charOfNat hvalid]), rfl⟩

/-- What is read behind a backslash is a letter. -/
theorem letter_of_run?_escape {c : Char} (h : run? escape input = some (c, rest)) :
    ∃ cs, Letter c ('\\' :: cs) ∧ input = cs.map some ++ rest := by
  rcases input with _ | ⟨_ | letter, input⟩
  · cases h
  · cases h
  · simp only [escape, run?_bind, run?_peek, List.head?_cons, Option.bind_some, run?_advance,
      List.drop_succ_cons, List.drop_zero, run?_ite] at h
    split_ifs at h with hu
    · subst hu
      obtain ⟨cs, hcs, rfl⟩ := letter_of_run?_numericEscape h
      exact ⟨'u' :: cs, hcs, rfl⟩
    · cases hshort : shortEscape? letter with
      | none => simp [hshort] at h
      | some unescaped =>
        simp only [hshort, run?_pure] at h
        obtain ⟨rfl, rfl⟩ := Prod.mk.inj (Option.some.inj h)
        exact ⟨[letter], .short (mem_shortForms hshort), rfl⟩

/-- Symbols that are all characters come from characters. -/
theorem eq_map_some_of_mapM {symbols : List Symbol} {cs : List Char}
    (h : symbols.mapM id = some cs) : symbols = cs.map some := by
  have hall := mapM_eq_some_iff.mp h
  clear h
  induction hall with
  | nil => rfl
  | cons hc _ ih => exact congrArg₂ List.cons hc ih

/-- What is read up to the closing mark are letters of the characters behind those seen before. -/
theorem letters_of_run?_stringAfter {turns : Nat} {before : List Symbol} {text : String}
    (h : run? (stringAfter turns before) input = some (text, rest)) :
    ∃ seen cs inner, before.reverse = seen.map some ∧ Letters cs inner ∧
      text = String.ofList (seen ++ cs) ∧ input = inner.map some ++ some '"' :: rest := by
  induction turns generalizing before input with
  | zero => cases h
  | succ turns ih =>
    -- A symbol put on top of those seen before is the first character of what follows them.
    have hstep : ∀ {s input}, run? (stringAfter turns (s :: before)) input = some (text, rest) →
        ∃ c seen cs inner, s = some c ∧ before.reverse = seen.map some ∧ Letters cs inner ∧
          text = String.ofList (seen ++ c :: cs) ∧ input = inner.map some ++ some '"' :: rest := by
      intro s input hmore
      obtain ⟨seen, cs, inner, hseen, hinner, rfl, rfl⟩ := ih hmore
      rw [List.reverse_cons] at hseen
      obtain ⟨seen', last, rfl, hseen', hlast⟩ := List.append_eq_map_iff.mp hseen
      obtain ⟨c, last, rfl, rfl, hnil⟩ := List.map_eq_cons_iff.mp hlast
      obtain rfl := List.map_eq_nil_iff.mp hnil
      exact ⟨c, seen', cs, inner, rfl, hseen'.symm, hinner, by simp, rfl⟩
    rcases input with _ | ⟨_ | c, input⟩
    · cases h
    · simp only [stringAfter, run?_bind, run?_peek, List.head?_cons, Option.bind_some,
        run?_advance, List.drop_succ_cons, List.drop_zero] at h
      obtain ⟨c, _, _, _, hc, _⟩ := hstep h
      cases hc
    · simp only [stringAfter, run?_bind, run?_peek, List.head?_cons, Option.bind_some, run?_ite,
        run?_advance, List.drop_succ_cons, List.drop_zero, run?_fail] at h
      split_ifs at h with hquote hslash hcontrol
      · -- The closing mark: the string is what has been seen, if all of it is characters.
        subst hquote
        cases hseen : before.reverse.mapM id with
        | none => simp [hseen] at h
        | some cs =>
          simp only [hseen, run?_pure] at h
          obtain ⟨rfl, rfl⟩ := Prod.mk.inj (Option.some.inj h)
          exact ⟨cs, [], [], eq_map_some_of_mapM hseen, .nil, by simp, rfl⟩
      · subst hslash
        obtain ⟨⟨c, input'⟩, hescape, hmore⟩ := Option.bind_eq_some_iff.mp h
        obtain ⟨part, hpart, rfl⟩ := letter_of_run?_escape hescape
        obtain ⟨_, seen, cs, inner, ⟨⟩, hseen, hinner, rfl, rfl⟩ := hstep hmore
        exact ⟨seen, _, _, hseen, .cons hpart hinner, rfl, by simp⟩
      · obtain ⟨_, seen, cs, inner, ⟨⟩, hseen, hinner, rfl, rfl⟩ := hstep h
        have hplain : Letter c [c] := .plain hquote hslash (by simpa [isControl] using hcontrol)
        exact ⟨seen, _, _, hseen, .cons hplain hinner, rfl, by simp⟩

/-- What is read as a string, behind its opening mark, spells the string. -/
theorem quoted_of_run?_string {text : String} (h : run? string input = some (text, rest)) :
    ∃ cs, Quoted text ('"' :: cs) ∧ input = cs.map some ++ rest := by
  obtain ⟨seen, cs, inner, hseen, hinner, rfl, rfl⟩ := letters_of_run?_stringAfter h
  obtain rfl : seen = [] := by simpa using hseen.symm
  exact ⟨inner ++ ['"'], ⟨inner, by simpa using hinner, rfl⟩, by simp⟩

/-! ### Numerals -/

theorem isDigit_of_digit? {s : Symbol} (h : (digit? s).isSome = true) :
    ∃ c, s = some c ∧ c.isDigit = true := by
  cases s with
  | none => cases h
  | some c =>
    refine ⟨c, rfl, ?_⟩
    rw [digit?_some] at h
    split at h
    · assumption
    · cases h

/-- What is read as digits are digits. -/
theorem digits_of_run?_digits {ds : List Nat} (h : run? digits input = some (ds, rest)) :
    ∃ cs : List Char, (∀ c ∈ cs, c.isDigit = true) ∧ ds = cs.map digitValue ∧
      input = cs.map some ++ rest ∧ NoDigit rest := by
  have hsplit : ∃ (cs : List Char) (more : Input), (∀ c ∈ cs, c.isDigit = true) ∧ NoDigit more ∧
      input = cs.map some ++ more := by
    clear h
    induction input with
    | nil => exact ⟨[], [], by simp, by simp [NoDigit], rfl⟩
    | cons s input ih =>
      by_cases hs : (digit? s).isSome = true
      · obtain ⟨c, rfl, hc⟩ := isDigit_of_digit? hs
        obtain ⟨cs, more, hcs, hmore, rfl⟩ := ih
        exact ⟨c :: cs, more, List.forall_mem_cons.mpr ⟨hc, hcs⟩, hmore, rfl⟩
      · refine ⟨[], s :: input, by simp, ?_, rfl⟩
        rintro _ ⟨⟩
        simpa using hs
  obtain ⟨cs, more, hcs, hmore, rfl⟩ := hsplit
  rw [run?_digits hcs hmore] at h
  obtain ⟨rfl, rfl⟩ := Prod.mk.inj (Option.some.inj h)
  exact ⟨cs, hcs, rfl, rfl, hmore⟩

theorem digits_of_run?_someDigits {ds : List Nat} (h : run? someDigits input = some (ds, rest)) :
    ∃ cs, AreDigits cs ∧ ds = cs.map digitValue ∧ input = cs.map some ++ rest := by
  simp only [someDigits, run?_bind, Option.bind_eq_some_iff] at h
  obtain ⟨⟨ds', input'⟩, hdigits, h⟩ := h
  obtain ⟨cs, hcs, rfl, rfl, -⟩ := digits_of_run?_digits hdigits
  simp only [run?_ite, run?_pure, run?_bind, run?_peek, Option.bind_some] at h
  split_ifs at h with hempty
  · split at h <;> cases h
  · obtain ⟨rfl, rfl⟩ := Prod.mk.inj (Option.some.inj h)
    exact ⟨cs, ⟨by simpa using hempty, hcs⟩, rfl, rfl⟩

namespace Numeral

/-- Digits that may stand before a point. -/
def IsWhole (cs : List Char) : Prop := AreDigits cs ∧ (cs.head? = some '0' → cs = ['0'])

theorem isWhole_of_run?_integerPart {ds : List Nat}
    (h : run? integerPart input = some (ds, rest)) :
    ∃ cs, IsWhole cs ∧ ds = cs.map digitValue ∧ input = cs.map some ++ rest := by
  rcases input with _ | ⟨s, input⟩
  · cases h
  · simp only [integerPart, run?_bind, run?_peek, List.head?_cons, Option.bind_some] at h
    split at h
    · cases h
    · next hzero =>
      -- A zero stands alone.
      obtain ⟨c, rfl, hc⟩ := isDigit_of_digit? (s := s) (by rw [hzero]; rfl)
      rw [digit?_of_isDigit hc] at hzero
      obtain rfl := eq_zero_of_digitValue hc (Option.some.inj hzero)
      have hrest : rest = input ∧ ds = [0] := by
        simp only [run?_bind, run?_advance, run?_peek, List.drop_succ_cons, List.drop_zero,
          Option.bind_some] at h
        split at h
        · simp only [run?_ite] at h
          split_ifs at h
          · cases h
          · obtain ⟨rfl, rfl⟩ := Prod.mk.inj (Option.some.inj h)
            exact ⟨rfl, rfl⟩
        · obtain ⟨rfl, rfl⟩ := Prod.mk.inj (Option.some.inj h)
          exact ⟨rfl, rfl⟩
      obtain ⟨rfl, rfl⟩ := hrest
      have hdigits : AreDigits ['0'] := ⟨List.cons_ne_nil _ _, List.forall_mem_singleton.mpr rfl⟩
      exact ⟨['0'], ⟨hdigits, fun _ => rfl⟩, rfl, rfl⟩
    · next d hne hd =>
      obtain ⟨c, rfl, hc⟩ := isDigit_of_digit? (s := s) (by rw [hd]; rfl)
      obtain ⟨cs, hcs, rfl, hinput, hrest⟩ := digits_of_run?_digits h
      rw [digit?_of_isDigit hc] at hd
      rcases cs with _ | ⟨c', cs⟩
      · subst hinput
        have := hrest (some c) rfl
        rw [digit?_of_isDigit hc] at this
        cases this
      · obtain ⟨⟨⟩, -⟩ := List.cons.inj hinput
        refine ⟨c :: cs, ⟨⟨by simp, hcs⟩, fun hhead => ?_⟩, rfl, hinput⟩
        obtain rfl : c = '0' := by simpa using hhead
        exact absurd (Option.some.inj hd).symm hne

theorem of_run?_fractionPart {fraction : Option (List Nat)}
    (h : run? fractionPart input = some (fraction, rest)) :
    ∃ ds : Option (List Char), (∀ cs ∈ ds, AreDigits cs) ∧
      fraction = ds.map (List.map digitValue) ∧
      input = (ds.elim [] ('.' :: ·)).map some ++ rest := by
  simp only [fractionPart, run?_bind, run?_peek, Option.bind_some] at h
  split at h
  · next hpoint =>
    obtain ⟨input, rfl⟩ := List.head?_eq_some_iff.mp hpoint
    simp only [run?_bind, run?_map, run?_advance, List.drop_succ_cons, List.drop_zero,
      Option.bind_some, Option.map_eq_some_iff] at h
    obtain ⟨⟨ds, _⟩, hdigits, ⟨⟩⟩ := h
    obtain ⟨cs, hcs, rfl, rfl⟩ := digits_of_run?_someDigits hdigits
    exact ⟨some cs, by simpa using hcs, rfl, rfl⟩
  · obtain ⟨rfl, rfl⟩ := Prod.mk.inj (Option.some.inj h)
    exact ⟨none, by simp, rfl, rfl⟩

/-- What is read as an exponent, behind its letter, is a sign and digits. -/
theorem of_run?_exponent {letter : Char} (hletter : letter = 'e' ∨ letter = 'E') {n : Int}
    (h : run? exponent input = some (n, rest)) :
    ∃ p : Power, p.letter = letter ∧ p.exponent = n ∧
      input = (p.sign.toList ++ p.digits).map some ++ rest := by
  simp only [exponent, run?_bind, run?_peek, Option.bind_some] at h
  split at h
  · next hplus =>
    obtain ⟨input, rfl⟩ := List.head?_eq_some_iff.mp hplus
    simp only [run?_bind, run?_advance, run?_pure, List.drop_succ_cons, List.drop_zero,
      Option.bind_some, Option.bind_eq_some_iff] at h
    obtain ⟨⟨ds, _⟩, hdigits, ⟨⟩⟩ := h
    obtain ⟨cs, hcs, rfl, rfl⟩ := digits_of_run?_someDigits hdigits
    exact ⟨⟨letter, some '+', cs, hletter, by simp, hcs⟩, rfl, rfl, rfl⟩
  · next hminus =>
    obtain ⟨input, rfl⟩ := List.head?_eq_some_iff.mp hminus
    simp only [run?_bind, run?_advance, run?_pure, List.drop_succ_cons, List.drop_zero,
      Option.bind_some, Option.bind_eq_some_iff] at h
    obtain ⟨⟨ds, _⟩, hdigits, ⟨⟩⟩ := h
    obtain ⟨cs, hcs, rfl, rfl⟩ := digits_of_run?_someDigits hdigits
    exact ⟨⟨letter, some '-', cs, hletter, by simp, hcs⟩, rfl, rfl, rfl⟩
  · simp only [run?_bind, run?_pure, Option.bind_some, Option.bind_eq_some_iff] at h
    obtain ⟨⟨ds, _⟩, hdigits, ⟨⟩⟩ := h
    obtain ⟨cs, hcs, rfl, rfl⟩ := digits_of_run?_someDigits hdigits
    exact ⟨⟨letter, none, cs, hletter, by simp, hcs⟩, rfl, rfl, rfl⟩

theorem of_run?_exponentPart {power : Option Int}
    (h : run? exponentPart input = some (power, rest)) :
    ∃ p : Option Power, power = p.map Power.exponent ∧
      input = (p.elim [] Power.chars).map some ++ rest := by
  simp only [exponentPart, run?_bind, run?_peek, Option.bind_some] at h
  split at h
  · next c hc =>
    obtain ⟨input, rfl⟩ := List.head?_eq_some_iff.mp hc
    simp only [run?_ite, run?_bind, run?_map, run?_advance, List.drop_succ_cons, List.drop_zero,
      Option.bind_some, run?_pure] at h
    split_ifs at h with hletter
    · obtain ⟨⟨n, _⟩, hexponent, ⟨⟩⟩ := Option.map_eq_some_iff.mp h
      obtain ⟨p, rfl, rfl, rfl⟩ := of_run?_exponent hletter hexponent
      exact ⟨some p, rfl, rfl⟩
    · obtain ⟨rfl, rfl⟩ := Prod.mk.inj (Option.some.inj h)
      exact ⟨none, rfl, rfl⟩
  · obtain ⟨rfl, rfl⟩ := Prod.mk.inj (Option.some.inj h)
    exact ⟨none, rfl, rfl⟩

/-- What is read as a number behind its sign is a numeral without the sign, and the number is what
the numeral is read as by itself. -/
theorem of_run?_unsignedNumeral {negative : Bool} {x : Number}
    (h : run? (unsignedNumeral negative) input = some (x, rest)) :
    ∃ n : Numeral, n.negative = negative ∧ n.number? = some x ∧
      input = (n.whole ++ n.tail).map some ++ rest := by
  obtain ⟨⟨_, _⟩, hwhole, h'⟩ : ∃ r, run? integerPart input = some r ∧ _ := by
    simpa only [unsignedNumeral, run?_bind, Option.bind_eq_some_iff] using h
  obtain ⟨⟨_, _⟩, hfraction, ⟨_, _⟩, hpower, -⟩ := h'
  rw [run?_unsignedNumeral_of_parts negative hwhole hfraction hpower] at h
  obtain ⟨whole, hdigits, rfl, rfl⟩ := isWhole_of_run?_integerPart hwhole
  obtain ⟨fraction, hfractions, rfl, rfl⟩ := of_run?_fractionPart hfraction
  obtain ⟨power, rfl, rfl⟩ := of_run?_exponentPart hpower
  obtain ⟨y, hy, ⟨⟩⟩ := Option.map_eq_some_iff.mp h
  let n : Numeral := ⟨negative, whole, fraction, power, hdigits.1, hdigits.2, hfractions⟩
  exact ⟨n, rfl, n.number?_eq.trans hy, by simp [n, tail]⟩

/-- What is read as a number is a numeral that is read as the number. -/
theorem of_run?_numeral {x : Number} (h : run? numeral input = some (x, rest)) :
    ∃ n : Numeral, n.number? = some x ∧ input = n.chars.map some ++ rest := by
  simp only [numeral, run?_bind, run?_peek, Option.bind_some] at h
  split at h
  · next hminus =>
    obtain ⟨input, rfl⟩ := List.head?_eq_some_iff.mp hminus
    have hunsigned : run? (unsignedNumeral true) input = some (x, rest) := by simpa using h
    obtain ⟨n, hnegative, hx, rfl⟩ := of_run?_unsignedNumeral hunsigned
    exact ⟨n, hx, by simp [chars, hnegative]⟩
  · obtain ⟨n, hnegative, hx, rfl⟩ := of_run?_unsignedNumeral h
    exact ⟨n, hx, by simp [chars, hnegative]⟩

end Numeral

/-! ### Arrays and objects -/

theorem Blanks.append {b b' : List Char} (hb : Blanks b) (hb' : Blanks b') : Blanks (b ++ b') :=
  fun c hc => (List.mem_append.mp hc).elim (hb c) (hb' c)

/-- Blanks may be added to what leads to an item. -/
theorem Lead.append {first : Bool} {lead b : List Char} (h : Lead first lead) (hb : Blanks b) :
    Lead first (lead ++ b) := by
  cases h with
  | first hb' => exact .first (hb'.append hb)
  | next hb₁ hb₂ => simpa using Lead.next hb₁ (hb₂.append hb)

/-- Before an item, what has been taken leads to it. -/
theorem lead_of_run?_nextItem {first : Bool} (h : run? (nextItem first) input = some (true, rest)) :
    ∃ lead, Lead first lead ∧ input = lead.map some ++ rest := by
  obtain ⟨b, shown, hb, rfl, hshown⟩ := exists_blanks input
  rw [nextItem, run?_bind, hshown, Option.bind_some] at h
  split at h
  · cases h
  · cases h
  · next s hclose hhead =>
    obtain ⟨more, rfl⟩ := List.head?_eq_some_iff.mp hhead
    cases first with
    | true =>
      obtain ⟨-, rfl⟩ := Prod.mk.inj (Option.some.inj h)
      exact ⟨b, .first hb, rfl⟩
    | false =>
      -- Behind an item there must be a comma, with blanks on both of its sides.
      simp only [Bool.false_eq_true, if_false, run?_ite, run?_bind, run?_advance,
        List.drop_succ_cons, List.drop_zero, Option.bind_some] at h
      split_ifs at h with hcomma
      · subst hcomma
        obtain ⟨b', shown, hb', rfl, hshown⟩ := exists_blanks more
        rw [hshown, Option.bind_some] at h
        split at h
        · cases h
        · cases h
        · obtain ⟨-, rfl⟩ := Prod.mk.inj (Option.some.inj h)
          exact ⟨b ++ ',' :: b', .next hb hb', by simp⟩
      · cases h

/-- Where no item follows, an array ends. -/
theorem bracket_of_run?_nextItem {first : Bool}
    (h : run? (nextItem first) input = some (false, rest)) :
    ∃ b more, Blanks b ∧ rest = some ']' :: more ∧ input = b.map some ++ rest := by
  obtain ⟨b, shown, hb, rfl, hshown⟩ := exists_blanks input
  rw [nextItem, run?_bind, hshown, Option.bind_some] at h
  split at h
  · cases h
  · next hhead =>
    obtain ⟨more, rfl⟩ := List.head?_eq_some_iff.mp hhead
    obtain ⟨-, rfl⟩ := Prod.mk.inj (Option.some.inj h)
    exact ⟨b, more, hb, rfl, rfl⟩
  · simp only [run?_ite, run?_bind, run?_pure, run?_fail, run?_advance, Option.bind_some] at h
    split_ifs at h
    · cases h
    · obtain ⟨_, -, h⟩ := Option.bind_eq_some_iff.mp h
      split at h <;> cases h

/-- What is taken as the end of an array is a bracket. -/
theorem bracket_of_run?_closeList (h : run? closeList input = some ((), rest)) :
    ∃ b, Blanks b ∧ input = b.map some ++ some ']' :: rest := by
  obtain ⟨b, shown, hb, rfl, hshown⟩ := exists_blanks input
  rw [closeList, run?_bind, hshown, Option.bind_some] at h
  split at h
  · cases h
  · next hhead =>
    obtain ⟨more, rfl⟩ := List.head?_eq_some_iff.mp hhead
    obtain rfl : more = rest := by simpa using h
    exact ⟨b, hb, rfl⟩
  · simp only [run?_bind, run?_advance, Option.bind_some, Option.bind_eq_some_iff] at h
    obtain ⟨_, -, h⟩ := h
    split at h <;> cases h
  · cases h

/-- What is read as a string is one, with its marks. -/
theorem quoted_cons_of_run?_string {text : String} (h : run? string input = some (text, rest)) :
    ∃ name, Quoted text name ∧ some '"' :: input = name.map some ++ rest := by
  obtain ⟨cs, hcs, rfl⟩ := quoted_of_run?_string h
  exact ⟨'"' :: cs, hcs, rfl⟩

/-- What is read as a key, with what leads to it, is a string. -/
theorem quoted_of_run?_nextKey {first : Bool} {key : String}
    (h : run? (nextKey first) input = some (some key, rest)) :
    ∃ lead name, Lead first lead ∧ Quoted key name ∧
      input = lead.map some ++ (name.map some ++ rest) := by
  obtain ⟨b, shown, hb, rfl, hshown⟩ := exists_blanks input
  rw [nextKey, run?_bind, hshown, Option.bind_some] at h
  split at h
  · cases h
  · cases h
  · next s hclose hhead =>
    obtain ⟨more, rfl⟩ := List.head?_eq_some_iff.mp hhead
    cases first with
    | true =>
      simp only [if_true, run?_ite, run?_bind, run?_map, run?_advance, List.drop_succ_cons,
        List.drop_zero, Option.bind_some, run?_fail] at h
      split_ifs at h with hquote
      · subst hquote
        obtain ⟨⟨_, _⟩, hstring, ⟨⟩⟩ := Option.map_eq_some_iff.mp h
        obtain ⟨name, hname, heq⟩ := quoted_cons_of_run?_string hstring
        exact ⟨b, name, .first hb, hname, by rw [heq]⟩
    | false =>
      simp only [Bool.false_eq_true, if_false, run?_ite, run?_bind, run?_map, run?_advance,
        run?_discard, List.drop_succ_cons, List.drop_zero, Option.bind_some, run?_fail] at h
      split_ifs at h with hcomma
      · subst hcomma
        obtain ⟨b', shown, hb', rfl, hshown⟩ := exists_blanks more
        rw [hshown, Option.map_some, Option.bind_some] at h
        obtain ⟨⟨_, _⟩, hkey, ⟨⟩⟩ := Option.map_eq_some_iff.mp h
        rw [Json.key, run?_bind, run?_peek, Option.bind_some] at hkey
        split at hkey
        · cases hkey
        · next hquote =>
          obtain ⟨more, rfl⟩ := List.head?_eq_some_iff.mp hquote
          obtain ⟨name, hname, heq⟩ := quoted_cons_of_run?_string (by simpa using hkey)
          exact ⟨b ++ ',' :: b', name, .next hb hb', hname, by simp [heq]⟩
        · cases hkey
        · cases hkey

/-- Where no key follows, an object ends. -/
theorem brace_of_run?_nextKey {first : Bool}
    (h : run? (nextKey first) input = some (none, rest)) :
    ∃ b more, Blanks b ∧ rest = some '\x7d' :: more ∧ input = b.map some ++ rest := by
  obtain ⟨b, shown, hb, rfl, hshown⟩ := exists_blanks input
  obtain ⟨more, rfl⟩ | hbrace := head?_cases shown '\x7d'
  · refine ⟨b, more, hb, ?_⟩
    have hnext := run?_nextKey_nil first hb more
    rw [h] at hnext
    obtain ⟨-, rfl⟩ := Prod.mk.inj (Option.some.inj hnext)
    exact ⟨rfl, rfl⟩
  · exact absurd h (run?_nextKey_ne_none hshown hbrace)

theorem colon_of_run?_colon (h : run? colon input = some ((), rest)) :
    ∃ b, Blanks b ∧ input = b.map some ++ some ':' :: rest := by
  obtain ⟨b, shown, hb, rfl, hshown⟩ := exists_blanks input
  rw [colon, run?_bind, hshown, Option.bind_some] at h
  split at h
  · cases h
  · next hhead =>
    obtain ⟨more, rfl⟩ := List.head?_eq_some_iff.mp hhead
    obtain rfl : more = rest := by simpa using h
    exact ⟨b, hb, rfl⟩
  · cases h

/-! ### Values -/

/-- A reader takes nothing but blanks and a spelling of a tree, and makes the meaning of the tree of
it. -/
def Recognizes (reader : Reader α) (meaning : Tree → Option α) : Prop :=
  ∀ ⦃input : Input⦄ ⦃x : α⦄ ⦃rest : Input⦄, run? reader input = some (x, rest) →
    ∃ b tree cs, Blanks b ∧ Spells tree cs ∧ meaning tree = some x ∧
      input = b.map some ++ (cs.map some ++ rest)

/-- What is read as the items of an array spells them. -/
theorem Recognizes.items {item : Reader α} {meaning : Tree → Option α} (h : Recognizes item meaning)
    {turns : Nat} {before xs : List α}
    (hrun : run? (items item turns before) input = some (xs, rest)) :
    ∃ trees more cs, Items before.isEmpty trees cs ∧ trees.mapM meaning = some more ∧
      xs = before.reverse ++ more ∧ input = cs.map some ++ rest := by
  -- Each turn puts one item on top of those before it, which are turned round at the end.
  induction turns generalizing before input with
  | zero => cases hrun
  | succ turns ih =>
    simp only [Json.items, run?_bind, Option.bind_eq_some_iff] at hrun
    obtain ⟨⟨_ | _, input'⟩, hnext, hrun⟩ := hrun
    · obtain ⟨b, more, hb, rfl, rfl⟩ := bracket_of_run?_nextItem hnext
      obtain ⟨rfl, rfl⟩ : before.reverse = xs ∧ more = rest := by simpa using hrun
      exact ⟨[], [], b ++ [']'], .nil hb, rfl, by simp, by simp⟩
    · obtain ⟨lead, hlead, rfl⟩ := lead_of_run?_nextItem hnext
      simp only [if_true, run?_bind, run?_within, Option.bind_eq_some_iff] at hrun
      obtain ⟨⟨x, input''⟩, hitem, hmore⟩ := hrun
      obtain ⟨b, tree, cs, hb, hcs, hx, rfl⟩ := h hitem
      obtain ⟨trees, more, cs', hcs', hxs, rfl, rfl⟩ := ih hmore
      refine ⟨tree :: trees, x :: more, (lead ++ b) ++ (cs ++ cs'),
        .cons (hlead.append hb) hcs hcs', ?_, by simp, by simp⟩
      simp [hx, hxs]

/-- What is read behind a colon spells a value there. -/
theorem Recognizes.afterColon {item : Reader α} {meaning : Tree → Option α}
    (h : Recognizes item meaning) {x : α} (hrun : run? (colon *> item) input = some (x, rest)) :
    ∃ b b' tree cs, Blanks b ∧ Blanks b' ∧ Spells tree cs ∧ meaning tree = some x ∧
      input = b.map some ++ some ':' :: (b'.map some ++ (cs.map some ++ rest)) := by
  rw [run?_seqRight] at hrun
  obtain ⟨⟨_, input'⟩, hcolon, hitem⟩ := Option.bind_eq_some_iff.mp hrun
  obtain ⟨b, hb, rfl⟩ := colon_of_run?_colon hcolon
  obtain ⟨b', tree, cs, hb', hcs, hx, rfl⟩ := h hitem
  exact ⟨b, b', tree, cs, hb, hb', hcs, hx, rfl⟩

/-- What is read as the fields of an object spells them. -/
theorem Recognizes.members {item : Reader α} {meaning : Tree → Option α}
    (h : Recognizes item meaning) {turns : Nat} {before xs : List (String × α)}
    (hrun : run? (members item turns before) input = some (xs, rest)) :
    ∃ fields more cs, Members before.isEmpty fields cs ∧
      (fields.mapM fun field => (meaning field.2).map (field.1, ·)) = some more ∧
      xs = before.reverse ++ more ∧ input = cs.map some ++ rest := by
  induction turns generalizing before input with
  | zero => cases hrun
  | succ turns ih =>
    simp only [Json.members, run?_bind, run?_within, Option.bind_eq_some_iff] at hrun
    obtain ⟨⟨_ | key, input'⟩, hnext, hrun⟩ := hrun
    · obtain ⟨b, more, hb, rfl, rfl⟩ := brace_of_run?_nextKey hnext
      obtain ⟨rfl, rfl⟩ : before.reverse = xs ∧ more = rest := by simpa using hrun
      exact ⟨[], [], b ++ ['\x7d'], .nil hb, rfl, by simp, by simp⟩
    · obtain ⟨lead, name, hlead, hname, rfl⟩ := quoted_of_run?_nextKey hnext
      simp only [run?_bind, run?_within, Option.bind_eq_some_iff] at hrun
      obtain ⟨⟨x, input''⟩, hitem, hmore⟩ := hrun
      obtain ⟨b, b', tree, cs, hb, hb', hcs, hx, rfl⟩ := h.afterColon hitem
      obtain ⟨fields, more, cs', hcs', hxs, rfl, rfl⟩ := ih hmore
      refine ⟨(key, tree) :: fields, (key, x) :: more, _,
        .cons hlead hname hb hb' hcs hcs', ?_, by simp, by simp⟩
      simp [hx, hxs]

/-- What is read as a value spells a tree, if that is so of the values inside it. -/
theorem recognizes_valueAround (nested : Option (Reader Value)) (meaning : Tree → Option Value)
    (h : ∀ inner ∈ nested, Recognizes inner meaning) :
    Recognizes (valueAround nested) (Tree.valueAround? (nested.map fun _ => meaning)) := by
  intro input v rest hrun
  obtain ⟨b, shown, hb, rfl, hshown⟩ := exists_blanks input
  unfold valueAround at hrun
  rw [run?_bind, hshown, Option.bind_some] at hrun
  split at hrun
  · cases hrun
  · cases hrun
  · next c hhead =>
    obtain ⟨more, rfl⟩ := List.head?_eq_some_iff.mp hhead
    simp only [run?_ite, run?_seqRight, run?_bind, run?_map, run?_advance, run?_pure,
      List.drop_succ_cons, List.drop_zero, Option.bind_some, run?_fail] at hrun
    -- The first character tells which kind of value stands there.
    split_ifs at hrun with hn ht hf hquote hnumeral hbracket hbrace
    · obtain ⟨⟨_, _⟩, hword, ⟨⟩⟩ := Option.bind_eq_some_iff.mp hrun
      exact ⟨b, .null, _, hb, .null, rfl, by rw [eq_of_run?_word hword]; rfl⟩
    · obtain ⟨⟨_, _⟩, hword, ⟨⟩⟩ := Option.bind_eq_some_iff.mp hrun
      exact ⟨b, .bool true, _, hb, .true, rfl, by rw [eq_of_run?_word hword]; rfl⟩
    · obtain ⟨⟨_, _⟩, hword, ⟨⟩⟩ := Option.bind_eq_some_iff.mp hrun
      exact ⟨b, .bool false, _, hb, .false, rfl, by rw [eq_of_run?_word hword]; rfl⟩
    · subst hquote
      obtain ⟨⟨text, _⟩, hstring, ⟨⟩⟩ := Option.map_eq_some_iff.mp hrun
      obtain ⟨cs, hcs, heq⟩ := quoted_cons_of_run?_string hstring
      exact ⟨b, .string text, cs, hb, .string hcs, rfl, by rw [heq]⟩
    · obtain ⟨⟨x, _⟩, hread, ⟨⟩⟩ := Option.map_eq_some_iff.mp hrun
      obtain ⟨n, hx, heq⟩ := Numeral.of_run?_numeral hread
      exact ⟨b, .number n, _, hb, .number, by simp [Tree.valueAround?, hx], by rw [heq]⟩
    · subst hbracket
      cases nested with
      | none => cases hrun
      | some inner =>
        simp only [run?_bind, run?_advance, run?_get, run?_map, List.drop_succ_cons,
          List.drop_zero, Option.bind_some] at hrun
        obtain ⟨⟨xs, _⟩, hitems, ⟨⟩⟩ := Option.map_eq_some_iff.mp hrun
        obtain ⟨trees, more, cs, hcs, hxs, rfl, rfl⟩ := (h inner rfl).items hitems
        exact ⟨b, .array trees, _, hb, .array hcs, by simp [Tree.valueAround?, hxs], by simp⟩
    · subst hbrace
      cases nested with
      | none => cases hrun
      | some inner =>
        simp only [run?_bind, run?_advance, run?_get, run?_map, List.drop_succ_cons,
          List.drop_zero, Option.bind_some] at hrun
        obtain ⟨⟨xs, _⟩, hmembers, ⟨⟩⟩ := Option.map_eq_some_iff.mp hrun
        obtain ⟨fields, more, cs, hcs, hxs, rfl, rfl⟩ := (h inner rfl).members hmembers
        exact ⟨b, .object fields, _, hb, .object hcs, by simp [Tree.valueAround?, hxs], by simp⟩

/-- What is kept is the value of a tree that is spelt there. -/
theorem recognizes_value (depth : Nat) : Recognizes (value depth) (Tree.valueWithin? depth) := by
  induction depth with
  | zero =>
    rw [← Tree.valueAround?_zero]
    exact recognizes_valueAround none (Tree.valueWithin? 0) (by simp)
  | succ depth ih =>
    rw [← Tree.valueAround?_succ]
    apply recognizes_valueAround (some (value depth)) (Tree.valueWithin? depth)
    rintro _ ⟨⟩
    exact ih

end RoomRelay.Json
