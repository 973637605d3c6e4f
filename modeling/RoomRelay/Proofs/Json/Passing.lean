import RoomRelay.Proofs.Json.Recognition

/-!
# What is passed over has the form of a value

A value that nobody wants is only looked at for its form, and less closely than one that is kept:
its strings may hold bytes that are no characters and halves of surrogate pairs, its numbers may be
too large, and it may nest without limit. Still nothing is passed over but one value of this form,
so that no bracket and no mark in it can be taken for one outside.

## Main definitions

* `LooseInside`, `IsLooseString` — strings of which only the form is seen
* `Loose`, `LooseItems`, `LooseMembers` — values of which only the form is seen
* `PassedOver` — such a value at the front of an input, behind blanks

## Main results

* `passedOver_of_run?_skipValue` — nothing else is passed over
-/

namespace RoomRelay.Json

variable {input rest : Input}

/-! ### Forms -/

/-- What stands between the marks of a string of which only the form is seen. -/
inductive LooseInside : Input → Prop
  | nil : LooseInside []
  /-- A byte that is no character. -/
  | broken {inner : Input} : LooseInside inner → LooseInside (none :: inner)
  | plain {c : Char} {inner : Input} :
      c ≠ '"' → c ≠ '\\' → 0x20 ≤ c.toNat → LooseInside inner → LooseInside (some c :: inner)
  | short {c letter : Char} {inner : Input} :
      (letter, c) ∈ shortForms → LooseInside inner →
      LooseInside (some '\\' :: some letter :: inner)
  /-- Any code, also that of half a pair. -/
  | unit {n : Nat} {ds : List Char} {inner : Input} :
      SpellsUnit n ds → LooseInside inner →
      LooseInside (some '\\' :: some 'u' :: (ds.map some ++ inner))

/-- A string of which only the form is seen, with its marks. -/
def IsLooseString (form : Input) : Prop :=
  ∃ inner, LooseInside inner ∧ form = some '"' :: (inner ++ [some '"'])

mutual

/-- A value of which only the form is seen, without blanks around it. -/
inductive Loose : Input → Prop
  | null : Loose ("null".toList.map some)
  | true : Loose ("true".toList.map some)
  | false : Loose ("false".toList.map some)
  | number {n : Numeral} : Loose (n.chars.map some)
  | string {form : Input} : IsLooseString form → Loose form
  | array {form : Input} : LooseItems true form → Loose (some '[' :: form)
  | object {form : Input} : LooseMembers true form → Loose (some '\x7b' :: form)

/-- The items of an array from one on, with the closing bracket. -/
inductive LooseItems : (first : Bool) → Input → Prop
  | nil {first : Bool} {b : List Char} : Blanks b → LooseItems first (b.map some ++ [some ']'])
  | cons {first : Bool} {lead : List Char} {item items : Input} :
      Lead first lead → Loose item → LooseItems false items →
      LooseItems first (lead.map some ++ (item ++ items))

/-- The fields of an object from one on, with the closing brace. -/
inductive LooseMembers : (first : Bool) → Input → Prop
  | nil {first : Bool} {b : List Char} :
      Blanks b → LooseMembers first (b.map some ++ [some '\x7d'])
  | cons {first : Bool} {lead b b' : List Char} {name value fields : Input} :
      Lead first lead → IsLooseString name → Blanks b → Blanks b' → Loose value →
      LooseMembers false fields →
      LooseMembers first (lead.map some ++
        (name ++ (b.map some ++ some ':' :: (b'.map some ++ (value ++ fields)))))

end

/-- A value of which only the form is seen is at the front of an input, behind blanks. -/
def PassedOver (input rest : Input) : Prop :=
  ∃ b form, Blanks b ∧ Loose form ∧ input = b.map some ++ (form ++ rest)

/-! ### Strings and numerals -/

/-- What is passed over behind a backslash may stand there in a string. -/
theorem of_run?_skipEscape (h : run? skipEscape input = some ((), rest)) :
    ∃ form, input = form ++ rest ∧
      ∀ {inner : Input}, LooseInside inner → LooseInside (some '\\' :: (form ++ inner)) := by
  rcases input with _ | ⟨_ | letter, input⟩
  · cases h
  · cases h
  · simp only [skipEscape, run?_bind, run?_peek, List.head?_cons, Option.bind_some, run?_advance,
      List.drop_succ_cons, List.drop_zero, run?_ite, run?_discard, run?_pure, run?_fail] at h
    split_ifs at h with hu hshort
    · subst hu
      obtain ⟨⟨n, _⟩, hhex, ⟨⟩⟩ := Option.map_eq_some_iff.mp h
      obtain ⟨ds, hds, rfl⟩ := spellsUnit_of_run?_hexEscape hhex
      exact ⟨some 'u' :: ds.map some, rfl, fun hinner => .unit hds hinner⟩
    · obtain ⟨c, hc⟩ := Option.isSome_iff_exists.mp hshort
      obtain ⟨-, rfl⟩ := Prod.mk.inj (Option.some.inj h)
      exact ⟨[some letter], rfl, fun hinner => .short (mem_shortForms hc) hinner⟩

/-- What is passed over up to the closing mark may stand in a string. -/
theorem looseInside_of_run?_skipStringAfter {turns : Nat}
    (h : run? (skipStringAfter turns) input = some ((), rest)) :
    ∃ inner, LooseInside inner ∧ input = inner ++ some '"' :: rest := by
  induction turns generalizing input with
  | zero => cases h
  | succ turns ih =>
    rcases input with _ | ⟨_ | c, input⟩
    · cases h
    · obtain ⟨inner, hinner, rfl⟩ := ih (by simpa [skipStringAfter] using h)
      exact ⟨none :: inner, .broken hinner, rfl⟩
    · simp only [skipStringAfter, run?_bind, run?_peek, List.head?_cons, Option.bind_some, run?_ite,
        run?_advance, List.drop_succ_cons, List.drop_zero, run?_fail] at h
      split_ifs at h with hquote hslash hcontrol
      · subst hquote
        obtain ⟨-, rfl⟩ := Prod.mk.inj (Option.some.inj h)
        exact ⟨[], .nil, rfl⟩
      · subst hslash
        obtain ⟨⟨_, input'⟩, hescape, hmore⟩ := Option.bind_eq_some_iff.mp h
        obtain ⟨inner, hinner, rfl⟩ := ih hmore
        obtain ⟨form, rfl, hform⟩ := of_run?_skipEscape hescape
        exact ⟨_, hform hinner, by simp⟩
      · obtain ⟨inner, hinner, rfl⟩ := ih h
        exact ⟨some c :: inner,
          .plain hquote hslash (by simpa [isControl] using hcontrol) hinner, rfl⟩

/-- What is passed over as a string, behind its opening mark, has the form of a string. -/
theorem isLooseString_of_run?_skipString (h : run? skipString input = some ((), rest)) :
    ∃ form, IsLooseString form ∧ some '"' :: input = form ++ rest := by
  obtain ⟨inner, hinner, rfl⟩ := looseInside_of_run?_skipStringAfter h
  exact ⟨_, ⟨inner, hinner, rfl⟩, by simp⟩

namespace Numeral

theorem digits_of_run?_skipDigits (h : run? skipDigits input = some ((), rest)) :
    ∃ cs, AreDigits cs ∧ input = cs.map some ++ rest := by
  simp only [skipDigits, run?_bind, Option.bind_eq_some_iff] at h
  obtain ⟨⟨ds, input'⟩, hdigits, h⟩ := h
  obtain ⟨cs, hcs, rfl, rfl, -⟩ := digits_of_run?_digits hdigits
  simp only [run?_ite, run?_pure, run?_fail] at h
  split_ifs at h with hempty
  obtain ⟨-, rfl⟩ := Prod.mk.inj (Option.some.inj h)
  exact ⟨cs, ⟨by simpa using hempty, hcs⟩, rfl⟩

/-! What is passed over of a numeral, from each of its parts on. -/

theorem of_run?_skipPower (h : run? skipPower input = some ((), rest)) :
    ∃ p : Option Power, input = (p.elim [] Power.chars).map some ++ rest := by
  simp only [skipPower, run?_bind, run?_peek, Option.bind_some] at h
  split at h
  · next c hc =>
    obtain ⟨input, rfl⟩ := List.head?_eq_some_iff.mp hc
    simp only [run?_ite, run?_bind, run?_peek, run?_advance, List.drop_succ_cons, List.drop_zero,
      Option.bind_some, run?_pure] at h
    split_ifs at h with hletter
    · split at h
      · next sign hhead =>
        simp only [run?_ite, run?_seqRight, run?_advance, Option.bind_some] at h
        split_ifs at h with hsign
        · obtain ⟨input, rfl⟩ := List.head?_eq_some_iff.mp hhead
          obtain ⟨cs, hcs, hdigits⟩ := digits_of_run?_skipDigits h
          obtain rfl : input = _ := hdigits
          exact ⟨some ⟨c, some sign, cs, hletter, by simpa using hsign, hcs⟩, rfl⟩
        · obtain ⟨cs, hcs, rfl⟩ := digits_of_run?_skipDigits h
          exact ⟨some ⟨c, none, cs, hletter, by simp, hcs⟩, rfl⟩
      · obtain ⟨cs, hcs, rfl⟩ := digits_of_run?_skipDigits h
        exact ⟨some ⟨c, none, cs, hletter, by simp, hcs⟩, rfl⟩
    · obtain ⟨-, rfl⟩ := Prod.mk.inj (Option.some.inj h)
      exact ⟨none, rfl⟩
  · obtain ⟨-, rfl⟩ := Prod.mk.inj (Option.some.inj h)
    exact ⟨none, rfl⟩

theorem of_run?_skipFraction (h : run? skipFraction input = some ((), rest)) :
    ∃ (fraction : Option (List Char)) (p : Option Power), (∀ cs ∈ fraction, AreDigits cs) ∧
      input = (fraction.elim [] ('.' :: ·) ++ p.elim [] Power.chars).map some ++ rest := by
  simp only [skipFraction, run?_bind, run?_peek, Option.bind_some] at h
  split at h
  · next hpoint =>
    obtain ⟨input, rfl⟩ := List.head?_eq_some_iff.mp hpoint
    simp only [run?_bind, run?_advance, List.drop_succ_cons, List.drop_zero, Option.bind_some,
      Option.bind_eq_some_iff] at h
    obtain ⟨⟨_, _⟩, hdigits, hpower⟩ := h
    obtain ⟨cs, hcs, rfl⟩ := digits_of_run?_skipDigits hdigits
    obtain ⟨p, rfl⟩ := of_run?_skipPower hpower
    exact ⟨some cs, p, by simpa using hcs, by simp⟩
  · obtain ⟨p, rfl⟩ := of_run?_skipPower h
    exact ⟨none, p, by simp, rfl⟩

theorem of_run?_skipWhole (h : run? skipWhole input = some ((), rest)) :
    ∃ cs more, IsWhole cs ∧ run? skipFraction more = some ((), rest) ∧
      input = cs.map some ++ more := by
  have hparts : ∃ r, run? integerPart input = some r ∧ run? skipFraction r.2 = some ((), rest) := by
    rcases input with _ | ⟨s, input⟩
    · cases h
    · simp only [skipWhole, integerPart, run?_bind, run?_peek, List.head?_cons,
        Option.bind_some] at h ⊢
      rcases hdigit : digit? s with _ | (_ | d)
      · simp [hdigit] at h
      · -- A zero stands alone.
        simp only [hdigit, run?_bind, run?_advance, run?_peek, List.drop_succ_cons,
          List.drop_zero, Option.bind_some] at h ⊢
        rcases input with _ | ⟨next, input⟩
        · exact ⟨([0], []), rfl, h⟩
        · simp only [List.head?_cons, run?_ite, run?_bind, run?_fail, Option.bind_none] at h ⊢
          split_ifs at h ⊢
          exact ⟨([0], next :: input), rfl, h⟩
      · simp only [hdigit, run?_bind, run?_discard, Option.bind_map] at h
        exact Option.bind_eq_some_iff.mp h
  obtain ⟨⟨_, more⟩, hwhole, hfraction⟩ := hparts
  obtain ⟨cs, hcs, -, rfl⟩ := isWhole_of_run?_integerPart hwhole
  exact ⟨cs, more, hcs, hfraction, rfl⟩

/-- What is passed over as a number is a numeral. -/
theorem of_run?_skipNumeral (h : run? skipNumeral input = some ((), rest)) :
    ∃ n : Numeral, input = n.chars.map some ++ rest := by
  have hunsigned : ∀ (negative : Bool) {input : Input}, run? skipWhole input = some ((), rest) →
      ∃ n : Numeral, n.negative = negative ∧ input = (n.whole ++ n.tail).map some ++ rest := by
    intro negative input h
    obtain ⟨whole, more, hdigits, hfraction, rfl⟩ := of_run?_skipWhole h
    obtain ⟨fraction, power, hfractions, rfl⟩ := of_run?_skipFraction hfraction
    exact ⟨⟨negative, whole, fraction, power, hdigits.1, hdigits.2, hfractions⟩, rfl,
      by simp [tail]⟩
  simp only [skipNumeral_eq, run?_bind, run?_peek, Option.bind_some] at h
  split at h
  · next hminus =>
    obtain ⟨input, rfl⟩ := List.head?_eq_some_iff.mp hminus
    have hwhole : run? skipWhole input = some ((), rest) := by simpa using h
    obtain ⟨n, hnegative, rfl⟩ := hunsigned true hwhole
    exact ⟨n, by simp [chars, hnegative]⟩
  · obtain ⟨n, hnegative, rfl⟩ := hunsigned false h
    exact ⟨n, by simp [chars, hnegative]⟩

end Numeral

/-! ### Arrays and objects -/

theorem of_run?_skipComma {close : Char} {missing ended : Cause} {another : Bool}
    (h : run? (skipComma close missing ended) input = some (another, rest)) :
    ∃ b, Blanks b ∧ input = b.map some ++ some (if another then ',' else close) :: rest := by
  obtain ⟨b, shown, hb, rfl, hshown⟩ := exists_blanks input
  rw [skipComma, run?_bind, hshown, Option.bind_some] at h
  split at h
  · cases h
  · next s hhead =>
    obtain ⟨more, rfl⟩ := List.head?_eq_some_iff.mp hhead
    simp only [run?_ite, run?_bind, run?_advance, run?_pure, run?_fail, List.drop_succ_cons,
      List.drop_zero, Option.bind_some] at h
    split_ifs at h with hcomma hclose
    · obtain ⟨rfl, rfl⟩ := Prod.mk.inj (Option.some.inj h)
      exact ⟨b, hb, by rw [hcomma]; rfl⟩
    · obtain ⟨rfl, rfl⟩ := Prod.mk.inj (Option.some.inj h)
      exact ⟨b, hb, by rw [hclose]; rfl⟩

theorem of_run?_skipKey (h : run? skipKey input = some ((), rest)) :
    ∃ b name b', Blanks b ∧ IsLooseString name ∧ Blanks b' ∧
      input = b.map some ++ (name ++ (b'.map some ++ some ':' :: rest)) := by
  obtain ⟨b, shown, hb, rfl, hshown⟩ := exists_blanks input
  rw [skipKey, run?_bind, hshown, Option.bind_some] at h
  split at h
  · cases h
  · next hhead =>
    obtain ⟨more, rfl⟩ := List.head?_eq_some_iff.mp hhead
    simp only [run?_bind, run?_advance, List.drop_succ_cons, List.drop_zero, Option.bind_some,
      Option.bind_eq_some_iff] at h
    obtain ⟨⟨_, input'⟩, hstring, hcolon⟩ := h
    obtain ⟨name, hname, heq⟩ := isLooseString_of_run?_skipString hstring
    obtain ⟨b', hb', rfl⟩ := colon_of_run?_colon hcolon
    exact ⟨b, name, b', hb, hname, hb', by rw [heq]⟩
  · cases h

/-- What is passed over as the items of an array has their form: one item, and those behind it. -/
theorem of_run?_skipItems {item : Reader Unit} {turns : Nat}
    (hitem : ∀ {input rest}, run? item input = some ((), rest) → PassedOver input rest)
    (h : run? (skipItems item turns) input = some ((), rest)) :
    ∃ b form items, Blanks b ∧ Loose form ∧ LooseItems false items ∧
      input = b.map some ++ (form ++ (items ++ rest)) := by
  induction turns generalizing input with
  | zero => cases h
  | succ turns ih =>
    simp only [skipItems, run?_bind, run?_ite, run?_pure, Option.bind_eq_some_iff] at h
    obtain ⟨⟨_, input₁⟩, hfirst, ⟨another, input₂⟩, hcomma, h⟩ := h
    obtain ⟨b, form, hb, hform, rfl⟩ := hitem hfirst
    obtain ⟨b₁, hb₁, rfl⟩ := of_run?_skipComma hcomma
    cases another with
    | false =>
      obtain ⟨-, rfl⟩ := Prod.mk.inj (Option.some.inj h)
      exact ⟨b, form, b₁.map some ++ [some ']'], hb, hform, .nil hb₁, by simp⟩
    | true =>
      obtain ⟨b₂, next, items, hb₂, hnext, hitems, rfl⟩ := ih (by simpa using h)
      refine ⟨b, form, (b₁ ++ ',' :: b₂).map some ++ (next ++ items), hb, hform,
        .cons (.next hb₁ hb₂) hnext hitems, by simp⟩

/-- What is passed over as the fields of an object has their form: one field, and those behind
it. -/
theorem of_run?_skipMembers {item : Reader Unit} {turns : Nat}
    (hitem : ∀ {input rest}, run? item input = some ((), rest) → PassedOver input rest)
    (h : run? (skipMembers item turns) input = some ((), rest)) :
    ∃ lead form, Blanks lead ∧ (∀ {first : Bool} {lead' : List Char}, Lead first (lead' ++ lead) →
        LooseMembers first ((lead' ++ lead).map some ++ form)) ∧
      input = lead.map some ++ (form ++ rest) := by
  induction turns generalizing input with
  | zero => cases h
  | succ turns ih =>
    simp only [skipMembers, run?_bind, run?_ite, run?_pure, Option.bind_eq_some_iff] at h
    obtain ⟨⟨_, input₀⟩, hkey, ⟨_, input₁⟩, hfirst, ⟨another, input₂⟩, hcomma, h⟩ := h
    obtain ⟨b, name, b', hb, hname, hb', rfl⟩ := of_run?_skipKey hkey
    obtain ⟨b'', value, hb'', hvalue, rfl⟩ := hitem hfirst
    obtain ⟨b₁, hb₁, rfl⟩ := of_run?_skipComma hcomma
    cases another with
    | false =>
      obtain ⟨-, rfl⟩ := Prod.mk.inj (Option.some.inj h)
      exact ⟨b, _, hb, fun hlead => .cons hlead hname hb' hb'' hvalue (.nil hb₁), by simp⟩
    | true =>
      -- The blanks behind the comma belong to what leads to the next name.
      obtain ⟨b₂, fields, hb₂, hfields, rfl⟩ := ih (by simpa using h)
      have hlead' : Lead false (b₁ ++ [','] ++ b₂) := by simpa using Lead.next hb₁ hb₂
      have hmore := hfields hlead'
      exact ⟨b, _, hb, fun hlead => .cons hlead hname hb' hb'' hvalue hmore, by simp⟩

/-! ### Values -/

theorem passedOver_of_run?_skipNested {depth : Nat}
    (h : run? (skipNested depth) input = some ((), rest)) : PassedOver input rest := by
  induction depth generalizing input rest with
  | zero => cases h
  | succ depth ih =>
    obtain ⟨b, shown, hb, rfl, hshown⟩ := exists_blanks input
    unfold skipNested at h
    rw [run?_bind, hshown, Option.bind_some] at h
    split at h
    · cases h
    · cases h
    · next c hhead =>
      obtain ⟨more, rfl⟩ := List.head?_eq_some_iff.mp hhead
      simp only [run?_ite, run?_bind, run?_advance, List.drop_succ_cons, List.drop_zero,
        Option.bind_some, run?_fail] at h
      -- One branch of the reader for each form that is passed over.
      split_ifs at h with hn ht hf hquote hnumeral hbracket hbrace
      · exact ⟨b, _, hb, .null, by rw [eq_of_run?_word h]⟩
      · exact ⟨b, _, hb, .true, by rw [eq_of_run?_word h]⟩
      · exact ⟨b, _, hb, .false, by rw [eq_of_run?_word h]⟩
      · subst hquote
        obtain ⟨form, hform, heq⟩ := isLooseString_of_run?_skipString h
        exact ⟨b, form, hb, .string hform, by rw [heq]⟩
      · obtain ⟨n, heq⟩ := Numeral.of_run?_skipNumeral h
        exact ⟨b, _, hb, .number, by rw [heq]⟩
      · subst hbracket
        obtain ⟨b', shown, hb', rfl, hshown⟩ := exists_blanks more
        rw [hshown, Option.bind_some] at h
        split at h
        · cases h
        · next hhead =>
          obtain ⟨more, rfl⟩ := List.head?_eq_some_iff.mp hhead
          obtain rfl : more = rest := by simpa using h
          exact ⟨b, _, hb, .array (.nil hb'), by simp⟩
        · simp only [run?_bind, run?_get, Option.bind_some] at h
          obtain ⟨b'', form, items, hb'', hform, hitems, rfl⟩ := of_run?_skipItems ih h
          exact ⟨b, _, hb, .array (.cons (.first (hb'.append hb'')) hform hitems), by simp⟩
      · subst hbrace
        obtain ⟨b', shown, hb', rfl, hshown⟩ := exists_blanks more
        rw [hshown, Option.bind_some] at h
        split at h
        · cases h
        · next hhead =>
          obtain ⟨more, rfl⟩ := List.head?_eq_some_iff.mp hhead
          obtain rfl : more = rest := by simpa using h
          exact ⟨b, _, hb, .object (.nil hb'), by simp⟩
        · simp only [run?_bind, run?_get, Option.bind_some] at h
          obtain ⟨b'', form, hb'', hform, rfl⟩ := of_run?_skipMembers ih h
          have hlead : Lead true (b' ++ b'') := .first (hb'.append hb'')
          exact ⟨b, _, hb, .object (hform hlead), by simp⟩

/-- Nothing is passed over but one value, of which the form is seen. -/
theorem passedOver_of_run?_skipValue (h : run? skipValue input = some ((), rest)) :
    PassedOver input rest := by
  have hnested : run? (skipNested (input.length + 1)) input = some ((), rest) := by
    rw [run?] at h ⊢
    exact h
  exact passedOver_of_run?_skipNested hnested

end RoomRelay.Json
