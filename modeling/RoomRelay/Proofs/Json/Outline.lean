import RoomRelay.Proofs.Json.Deferral

/-!
# Texts of values, and what is read of them

A text may be that of a value and yet spell no tree: an escape may be half of a surrogate pair,
which denotes no character. So this file describes texts once more, without saying what they denote.
An *outline* only tells what is seen at the top: whether the text is that of an array or an object,
and which texts stand inside it.

A reader takes such a text up to its end, or it fails whatever follows. What it makes of the text
can therefore be said of the text alone, and an array or an object is read part by part.

## Main definitions

* `Inside`, `IsString` — the texts of strings
* `Outline`, `Written`, `IsValueText` — the texts of values, with their outlines
* `Makes`, `kept?`, `name?` — what readers make of a text
* `IsEmptyEntry` — an object with one field, which is an object without fields

## Main results

* `Inside.decided` — what stands in a string spells characters, or no reader takes it
* `Written.makes` — what is kept of a text
* `ItemTexts.makes`, `FieldTexts.makes` — what is kept of an array or an object
* `Written.isEmptyEntry` — a kept value maps a word to an empty object only if the text does
-/

namespace RoomRelay.Json

variable {α β : Type}

/-! ### Texts -/

/-- What stands between the marks of a string: characters as they are, and escapes. An escape may be
half of a surrogate pair without the other half. -/
inductive Inside : List Char → Prop
  | nil : Inside []
  | plain {c : Char} {cs : List Char} :
      c ≠ '"' → c ≠ '\\' → 0x20 ≤ c.toNat → Inside cs → Inside (c :: cs)
  | short {c letter : Char} {cs : List Char} :
      (letter, c) ∈ shortForms → Inside cs → Inside ('\\' :: letter :: cs)
  | unit {n : Nat} {ds cs : List Char} :
      SpellsUnit n ds → Inside cs → Inside ('\\' :: 'u' :: (ds ++ cs))

/-- A string with its marks. -/
def IsString (cs : List Char) : Prop := ∃ inner, Inside inner ∧ cs = '"' :: (inner ++ ['"'])

/-- The texts of the items of an array from one on, with the closing bracket. -/
inductive ItemTexts : (first : Bool) → List (List Char) → List Char → Prop
  | nil {first : Bool} {b : List Char} : Blanks b → ItemTexts first [] (b ++ [']'])
  | cons {first : Bool} {item : List Char} {items : List (List Char)} {lead rest : List Char} :
      Lead first lead → ItemTexts false items rest →
      ItemTexts first (item :: items) (lead ++ (item ++ rest))

/-- The texts of the fields of an object from one on, with the closing brace. -/
inductive FieldTexts : (first : Bool) → List (List Char × List Char) → List Char → Prop
  | nil {first : Bool} {b : List Char} : Blanks b → FieldTexts first [] (b ++ ['\x7d'])
  | cons {first : Bool} {name body : List Char} {fields : List (List Char × List Char)}
      {lead b b' rest : List Char} :
      Lead first lead → Blanks b → Blanks b' → FieldTexts false fields rest →
      FieldTexts first ((name, body) :: fields)
        (lead ++ (name ++ (b ++ ':' :: (b' ++ (body ++ rest)))))

/-- What is seen at the top of the text of a value. -/
inductive Outline
  | scalar
  | array (items : List (List Char))
  | object (fields : List (List Char × List Char))

/-- The texts of values, without blanks around them, with their outlines. -/
inductive Written : Outline → List Char → Prop
  | null : Written .scalar ['n', 'u', 'l', 'l']
  | true : Written .scalar ['t', 'r', 'u', 'e']
  | false : Written .scalar ['f', 'a', 'l', 's', 'e']
  | number {n : Numeral} : Written .scalar n.chars
  | string {cs : List Char} : IsString cs → Written .scalar cs
  | array {items : List (List Char)} {outline : List Char → Outline} {cs : List Char} :
      (∀ item ∈ items, Written (outline item) item) → ItemTexts true items cs →
      Written (.array items) ('[' :: cs)
  | object {fields : List (List Char × List Char)} {outline : List Char → Outline}
      {cs : List Char} :
      (∀ field ∈ fields, IsString field.1) →
      (∀ field ∈ fields, Written (outline field.2) field.2) → FieldTexts true fields cs →
      Written (.object fields) ('\x7b' :: cs)

/-- A text that is that of a value, with blanks around it. -/
def IsValueText (text : String) (outline : Outline) : Prop :=
  ∃ b cs b', Blanks b ∧ Written outline cs ∧ Blanks b' ∧ text.toList = b ++ (cs ++ b')

/-- An object with one field, which is an object without fields. -/
def IsEmptyEntry (text : List Char) : Prop :=
  ∃ name inner, Written (.object [(name, inner)]) text ∧ Written (.object []) inner

/-- The characters with which the texts of an outline begin. -/
def Outline.Opens : Outline → Char → Prop
  | .scalar, c => c ≠ '[' ∧ c ≠ '\x7b'
  | .array _, c => c = '['
  | .object _, c => c = '\x7b'

theorem IsString.opens {cs : List Char} (h : IsString cs) : ∃ more, cs = '"' :: more := by
  obtain ⟨inner, -, rfl⟩ := h
  exact ⟨_, rfl⟩

namespace Written

variable {outline : Outline} {cs : List Char}

/-- A text begins with no blank and with no mark between or behind items. -/
theorem opens (h : Written outline cs) :
    ∃ c more, cs = c :: more ∧ outline.Opens c ∧
      c ∉ [' ', '\n', '\t', '\r'] ∧ c ≠ ']' ∧ c ≠ ',' := by
  cases h with
  | null | true | false => exact ⟨_, _, rfl, ⟨by decide, by decide⟩, by decide⟩
  | @number n =>
    obtain ⟨c, more, hcs, hopens⟩ := (Spells.number (n := n)).opens
    obtain ⟨-, -, -, -, -, hbracket, hbrace⟩ := hopens.of_number
    exact ⟨c, more, hcs, ⟨hbracket, hbrace⟩, hopens.not_mem⟩
  | string hstring =>
    obtain ⟨more, rfl⟩ := hstring.opens
    exact ⟨_, _, rfl, ⟨by decide, by decide⟩, by decide⟩
  | array | object => exact ⟨_, _, rfl, rfl, by decide⟩

theorem item {items : List (List Char)} (h : Written (.array items) cs) {item : List Char}
    (hitem : item ∈ items) : ∃ outline, Written outline item := by
  cases h with
  | array hitems _ => exact ⟨_, hitems item hitem⟩

theorem field {fields : List (List Char × List Char)} (h : Written (.object fields) cs)
    {field : List Char × List Char} (hfield : field ∈ fields) :
    ∃ outline, Written outline field.2 := by
  cases h with
  | object _ hvalues _ => exact ⟨_, hvalues field hfield⟩

end Written

/-- A string is no object. -/
theorem IsString.not_isEmptyEntry {cs : List Char} (h : IsString cs) : ¬ IsEmptyEntry cs := by
  rintro ⟨name, inner, hobject, -⟩
  obtain ⟨more, rfl⟩ := h.opens
  obtain ⟨c, _, hcons, hopens, -⟩ := hobject.opens
  obtain rfl : '"' = c := (List.cons.inj hcons).1
  exact absurd hopens (by simp [Outline.Opens])

/-! ### Strings -/

theorem SpellsUnit.lt {n : Nat} {ds : List Char} (h : SpellsUnit n ds) : n < 0x10000 := by
  obtain ⟨ds, hlen, rfl, -⟩ := h
  match ds, hlen with
  | [a, b, c, d], _ =>
    simp [Hex.ofDigits]
    omega

/-- What spells characters may stand in a string. -/
theorem Letters.inside {text cs : List Char} (h : Letters text cs) : Inside cs := by
  induction h with
  | nil => exact .nil
  | cons hc _ ih =>
    cases hc with
    | plain h₁ h₂ h₃ => exact .plain h₁ h₂ h₃ ih
    | short hmem => exact .short hmem ih
    | unit hunit => exact .unit hunit ih
    | pair _ _ _ _ _ hhigh hlow => simpa using Inside.unit hhigh (.unit hlow ih)

theorem Quoted.isString {text : String} {cs : List Char} (h : Quoted text cs) : IsString cs := by
  obtain ⟨inner, hinner, rfl⟩ := h
  exact ⟨inner, hinner.inside, rfl⟩

/-- Where this stands in a string, no reader takes the string. -/
def Spoils (cs : List Char) : Prop := ∀ (turns : Nat) (before : List Symbol) (rest : Input),
  run? (stringAfter turns before) (cs.map some ++ some '"' :: rest) = none

theorem spoils_of_escape {cs : List Char}
    (h : ∀ rest, run? escape (cs.map some ++ some '"' :: rest) = none) : Spoils ('\\' :: cs) := by
  intro turns before rest
  cases turns with
  | zero => rfl
  | succ turns => simp [stringAfter, h]

theorem Letter.spoils {c : Char} {part cs : List Char} (hc : Letter c part) (hcs : Spoils cs) :
    Spoils (part ++ cs) := by
  intro turns before rest
  cases turns with
  | zero => rfl
  | succ turns =>
    have hnext := hcs turns (some c :: before) rest
    obtain ⟨rfl, hquote, hslash, hcontrol⟩ | ⟨ds, rfl⟩ := hc.plain_or_escaped
    · simpa [stringAfter, hquote, hslash, isControl, hcontrol] using hnext
    · simpa [stringAfter, run?_escape hc] using hnext

/-- What stands in a string spells characters, or it spoils the string. -/
def Decided (cs : List Char) : Prop := (∃ text, Letters text cs) ∨ Spoils cs

theorem Letter.decided {c : Char} {part cs : List Char} (hc : Letter c part) (hcs : Decided cs) :
    Decided (part ++ cs) := by
  obtain ⟨text, htext⟩ | hspoils := hcs
  · exact .inl ⟨c :: text, .cons hc htext⟩
  · exact .inr (hc.spoils hspoils)

/-- The second half of a surrogate pair, with the letters in front of its digits. -/
def secondHalf : Reader Nat := pairMark '\\' *> pairMark 'u' *> hexEscape

/-- The first half of a pair spoils a string unless the second half follows. -/
theorem spoils_high {high : Nat} {ds cs : List Char} (hds : SpellsUnit high ds)
    (hhigh : 0xD800 ≤ high ∧ high ≤ 0xDBFF)
    (hcs : ∀ rest r, run? secondHalf (cs.map some ++ some '"' :: rest) = some r →
      ¬ (0xDC00 ≤ r.1 ∧ r.1 ≤ 0xDFFF)) : Spoils ('\\' :: 'u' :: (ds ++ cs)) := by
  have hlow : ¬ (0xDC00 ≤ high ∧ high ≤ 0xDFFF) := by omega
  apply spoils_of_escape
  intro rest
  have hfirst := run?_hexEscape hds (cs.map some ++ some '"' :: rest)
  have hescape : run? escape (('u' :: (ds ++ cs)).map some ++ some '"' :: rest) =
      (run? secondHalf (cs.map some ++ some '"' :: rest)).bind fun r =>
        if 0xDC00 ≤ r.1 ∧ r.1 ≤ 0xDFFF then
          some (Char.ofNat ((high - 0xD800) * 0x400 + (r.1 - 0xDC00) + 0x10000), r.2)
        else none := by
    simp [escape, numericEscape, hfirst, hlow, hhigh, secondHalf, Option.bind_assoc]
  rw [hescape]
  cases hsecond : run? secondHalf (cs.map some ++ some '"' :: rest) with
  | none => rfl
  | some r => simp [hcs rest r hsecond]

theorem toNat_charOfNat {n : Nat} (h : n.isValidChar) : (Char.ofNat n).toNat = n := by
  rw [Char.ofNat, dif_pos h]
  rfl

/-- An escape is a letter by itself, or it spoils the string, unless it is the first half of a
pair. -/
theorem decided_unit {n : Nat} {ds cs : List Char} (hds : SpellsUnit n ds) (hcs : Decided cs)
    (hpair : 0xD800 ≤ n ∧ n ≤ 0xDBFF → Decided ('\\' :: 'u' :: (ds ++ cs))) :
    Decided ('\\' :: 'u' :: (ds ++ cs)) := by
  by_cases hlow : 0xDC00 ≤ n ∧ n ≤ 0xDFFF
  · -- A second half comes after a first half only.
    right
    apply spoils_of_escape
    intro rest
    have hfirst := run?_hexEscape hds (cs.map some ++ some '"' :: rest)
    simp [escape, numericEscape, hfirst, hlow]
  · by_cases hhigh : 0xD800 ≤ n ∧ n ≤ 0xDBFF
    · exact hpair hhigh
    · have hlt := hds.lt
      have hvalid : n.isValidChar := by
        unfold Nat.isValidChar
        omega
      have hletter : Letter (Char.ofNat n) ('\\' :: 'u' :: ds) :=
        .unit (by rwa [toNat_charOfNat hvalid])
      simpa using hletter.decided hcs

/-- What stands in a string is a sequence of letters, until half of a pair stands alone. An escape
in front may make a pair with what follows. -/
theorem Inside.decided_and {cs : List Char} (h : Inside cs) :
    Decided cs ∧ ∀ {n : Nat} {ds : List Char}, SpellsUnit n ds →
      Decided ('\\' :: 'u' :: (ds ++ cs)) := by
  induction h with
  | nil =>
    have hnil : Decided [] := .inl ⟨[], .nil⟩
    exact ⟨hnil, fun hds => decided_unit hds hnil fun hhigh =>
      .inr (spoils_high hds hhigh (by simp [secondHalf, pairMark]))⟩
  | plain hquote hslash hcontrol _ ih =>
    have hplain := (Letter.plain hquote hslash hcontrol).decided ih.1
    exact ⟨hplain, fun hds => decided_unit hds hplain fun hhigh =>
      .inr (spoils_high hds hhigh (by simp [secondHalf, pairMark, hslash]))⟩
  | short hmem _ ih =>
    have hshort := (Letter.short hmem).decided ih.1
    have hu := (shortForms_read _ hmem).1
    exact ⟨hshort, fun hds => decided_unit hds hshort fun hhigh =>
      .inr (spoils_high hds hhigh (by simp [secondHalf, pairMark, hu]))⟩
  | @unit m es more hes _ ih =>
    refine ⟨ih.2 hes, @fun n ds hds => decided_unit hds (ih.2 hes) fun hhigh => ?_⟩
    by_cases hm : 0xDC00 ≤ m ∧ m ≤ 0xDFFF
    · -- Both halves are there: they are one letter.
      have hpair : Letter (Char.ofNat ((n - 0xD800) * 0x400 + (m - 0xDC00) + 0x10000)) _ :=
        .pair hhigh.1 hhigh.2 hm.1 hm.2 (toNat_charOfNat (.inr (by omega))) hds hes
      simpa using hpair.decided ih.1
    · -- An escape follows, but it is no second half.
      refine .inr (spoils_high hds hhigh ?_)
      rintro rest r hr
      have hread := run?_hexEscape hes (more.map some ++ some '"' :: rest)
      have hsecond : run? secondHalf (('\\' :: 'u' :: (es ++ more)).map some ++
          some '"' :: rest) = some (m, more.map some ++ some '"' :: rest) := by
        simp [secondHalf, pairMark, hread]
      obtain rfl := Option.some.inj (hsecond.symm.trans hr)
      exact hm

theorem Inside.decided {cs : List Char} (h : Inside cs) : Decided cs := h.decided_and.1

/-! ### What readers make of a text -/

/-- A reader makes this of a text, with blanks in front, and leaves what follows; where there is
nothing to be made it fails. -/
def Makes (reader : Reader α) (cs : List Char) (result : Option α) : Prop :=
  ∀ ⦃b : List Char⦄ ⦃rest : Input⦄, Blanks b → Ends rest →
    run? reader (b.map some ++ (cs.map some ++ rest)) = result.map (·, rest)

/-- The value that is kept of a text. -/
def kept? (depth : Nat) (cs : List Char) : Option Value :=
  (run? (value depth) (cs.map some)).map (·.1)

/-- What the text of a string is read as. -/
def name? (cs : List Char) : Option String := (run? string (cs.tail.map some)).map (·.1)

/-- What is made of the text of a field. -/
def member? (result : List Char → Option α) (field : List Char × List Char) :
    Option (String × α) :=
  (name? field.1).bind fun name => (result field.2).map (name, ·)

theorem ends_nil : Ends [] := fun c h => absurd h (by simp)

theorem Interprets.makes {reader : Reader α} {meaning : Tree → Option α}
    (h : Interprets reader meaning) {tree : Tree} {cs : List Char} (hcs : Spells tree cs) :
    Makes reader cs (meaning tree) := fun _ _ hb hrest => h hb hcs hrest

theorem Makes.kept?_eq {depth : Nat} {cs : List Char} {result : Option Value}
    (h : Makes (value depth) cs result) : kept? depth cs = result := by
  have halone := h blanks_nil ends_nil
  simp only [List.map_nil, List.nil_append, List.append_nil] at halone
  simp [kept?, halone, Function.comp_def]

theorem Makes.kept {depth : Nat} {cs : List Char} {result : Option Value}
    (h : Makes (value depth) cs result) : Makes (value depth) cs (kept? depth cs) := by
  rwa [h.kept?_eq]

/-- What is made of a text is told from its first character on. -/
theorem makes_cons {reader : Reader α} {c : Char} {cs : List Char} {result : Option α}
    (hc : c ∉ [' ', '\n', '\t', '\r'])
    (h : ∀ {input rest : Input},
      run? blanks input = some (some (some c), some c :: (cs.map some ++ rest)) → Ends rest →
      run? reader input = result.map (·, rest)) : Makes reader (c :: cs) result := by
  intro b rest hb hrest
  refine h ?_ hrest
  rw [run?_blanks_append hb]
  exact run?_blanks_cons hc (cs.map some ++ rest)

/-- The value after a key is read behind its colon. -/
theorem Makes.afterColon {item : Reader α} {cs : List Char} {result : Option α}
    (h : Makes item cs result) {b b' : List Char} (hb : Blanks b) (hb' : Blanks b') {rest : Input}
    (hrest : Ends rest) :
    run? (colon *> item) (b.map some ++ some ':' :: (b'.map some ++ (cs.map some ++ rest))) =
      result.map (·, rest) := by
  rw [run?_seqRight, run?_colon hb, Option.bind_some, h hb' hrest]

theorem name?_of_quoted {key : String} {name : List Char} (h : Quoted key name) :
    name? name = some key := by
  obtain ⟨inner, -, rfl⟩ := id h
  have hread := run?_string h []
  rw [List.append_nil] at hread
  rw [name?, List.tail_cons, hread, Option.map_some]

namespace IsString

/-- A string is read as a whole, or not at all. -/
theorem run?_string {more : List Char} (h : IsString ('"' :: more)) (rest : Input) :
    run? string (more.map some ++ rest) = (name? ('"' :: more)).map (·, rest) := by
  obtain ⟨inner, hinner, heq⟩ := h
  obtain rfl : more = inner ++ ['"'] := List.tail_eq_of_cons_eq heq
  obtain ⟨text, htext⟩ | hspoils := hinner.decided
  · -- The string spells a text.
    have hquoted : Quoted (String.ofList text) ('"' :: (inner ++ ['"'])) :=
      ⟨inner, by simpa using htext, rfl⟩
    rw [Json.run?_string hquoted, name?_of_quoted hquoted, Option.map_some]
  · -- The string is spoilt, whatever follows it.
    have hfails : ∀ rest, run? string ((inner ++ ['"']).map some ++ rest) = none := by
      intro rest
      rw [List.map_append, List.append_assoc]
      exact hspoils _ [] rest
    have halone := hfails []
    rw [List.append_nil] at halone
    rw [name?, List.tail_cons, halone, hfails]
    rfl

/-- A key is taken with what leads to it. -/
theorem run?_nextKey {name lead : List Char} {first : Bool} (h : IsString name)
    (hlead : Lead first lead) (rest : Input) :
    run? (nextKey first) (lead.map some ++ (name.map some ++ rest)) =
      (name? name).map fun key => (some key, rest) := by
  obtain ⟨more, rfl⟩ := h.opens
  rw [List.map_cons, List.cons_append, run?_nextKey_lead hlead, h.run?_string, Option.map_map]
  rfl

theorem makes {cs : List Char} (h : IsString cs) (depth : Nat) :
    Makes (value depth) cs ((name? cs).map .string) := by
  obtain ⟨more, rfl⟩ := h.opens
  refine makes_cons (by decide) fun hshown _ => ?_
  rw [run?_value_string hshown, h.run?_string, Option.map_map, Option.map_map]
  rfl

end IsString

/-! ### Arrays and objects -/

theorem length_of_mapM {f : α → Option β} {xs : List α} {ys : List β} (h : xs.mapM f = some ys) :
    ys.length = xs.length := by
  induction xs generalizing ys with
  | nil => simp_all
  | cons x xs ih =>
    simp only [List.mapM_cons, Option.bind_eq_bind, Option.pure_def, Option.bind_eq_some_iff] at h
    obtain ⟨y, -, zs, hzs, ⟨⟩⟩ := h
    simp [ih hzs]

theorem ItemTexts.ends {texts : List (List Char)} {cs : List Char} (h : ItemTexts false texts cs)
    (rest : Input) : Ends (cs.map some ++ rest) := by
  cases h with
  | nil hb => simpa using hb.ends (c := ']') (by decide) rest
  | cons hlead _ => simpa using hlead.ends _

theorem FieldTexts.ends {fields : List (List Char × List Char)} {cs : List Char}
    (h : FieldTexts false fields cs) (rest : Input) : Ends (cs.map some ++ rest) := by
  cases h with
  | nil hb => simpa using hb.ends (c := '\x7d') (by decide) rest
  | cons hlead _ _ _ => simpa using hlead.ends _

/-- The items of an array are read one by one. -/
theorem ItemTexts.run?_items {item : Reader α} {result : List Char → Option α} {first : Bool}
    {texts : List (List Char)} {cs : List Char} (hcs : ItemTexts first texts cs)
    (hwritten : ∀ text ∈ texts, ∃ outline, Written outline text)
    (hitem : ∀ text ∈ texts, Makes item text (result text)) (before : List α)
    (hfirst : before.isEmpty = first) (turns : Nat) (hturns : cs.length < turns) (rest : Input) :
    run? (items item turns before) (cs.map some ++ rest) =
      (texts.mapM result).map fun xs => (before.reverse ++ xs, rest) := by
  induction hcs generalizing before turns with
  | nil hb =>
    obtain ⟨turns, rfl⟩ := Nat.exists_eq_add_one.mpr (Nat.zero_lt_of_lt hturns)
    have hnext := run?_nextItem_nil before.isEmpty hb rest
    simp [items, hnext]
  | @cons first text texts lead more hlead hmore ih =>
    obtain ⟨turns, rfl⟩ := Nat.exists_eq_add_one.mpr (Nat.zero_lt_of_lt hturns)
    rw [List.forall_mem_cons] at hwritten hitem
    obtain ⟨⟨outline, htext⟩, hwritten⟩ := hwritten
    obtain ⟨c, body, rfl, -, hblank, hclose, -⟩ := htext.opens
    have hnext := run?_nextItem_lead hlead hblank hclose (body.map some ++ (more.map some ++ rest))
    have hread := hitem.1 blanks_nil (hmore.ends rest)
    have hrest := fun x => ih hwritten hitem.2 (x :: before) rfl turns
      (by simp at hturns; omega)
    subst hfirst
    simp only [List.map_append, List.map_cons, List.append_assoc, List.cons_append, List.map_nil,
      List.nil_append] at hread ⊢
    simp only [items, run?_bind, hnext, Option.bind_some, if_true, run?_within, hread,
      List.mapM_cons]
    cases result (c :: body) with
    | none => rfl
    | some x => cases hresult : texts.mapM result <;> simp [hrest, hresult]

/-- The fields of an object are read one by one. -/
theorem FieldTexts.run?_members {item : Reader α} {result : List Char → Option α} {first : Bool}
    {fields : List (List Char × List Char)} {cs : List Char} (hcs : FieldTexts first fields cs)
    (hnames : ∀ field ∈ fields, IsString field.1)
    (hitem : ∀ field ∈ fields, Makes item field.2 (result field.2)) (before : List (String × α))
    (hfirst : before.isEmpty = first) (turns : Nat) (hturns : cs.length < turns) (rest : Input) :
    run? (members item turns before) (cs.map some ++ rest) =
      (fields.mapM (member? result)).map fun xs => (before.reverse ++ xs, rest) := by
  induction hcs generalizing before turns with
  | nil hb =>
    obtain ⟨turns, rfl⟩ := Nat.exists_eq_add_one.mpr (Nat.zero_lt_of_lt hturns)
    have hnext := run?_nextKey_nil before.isEmpty hb rest
    simp [members, hnext]
  | @cons first name body fields lead b b' more hlead hb hb' hmore ih =>
    obtain ⟨turns, rfl⟩ := Nat.exists_eq_add_one.mpr (Nat.zero_lt_of_lt hturns)
    rw [List.forall_mem_cons] at hnames hitem
    have hnext := hnames.1.run?_nextKey hlead
      (b.map some ++ some ':' :: (b'.map some ++ (body.map some ++ (more.map some ++ rest))))
    have hread := hitem.1.afterColon hb hb' (hmore.ends rest)
    have hrest := fun x => ih hnames.2 hitem.2 (x :: before) rfl turns (by simp at hturns; omega)
    subst hfirst
    simp only [List.map_append, List.map_cons, List.append_assoc, List.cons_append] at hnext ⊢
    simp only [members, run?_bind, run?_within, hnext, List.mapM_cons, member?]
    cases name? name with
    | none => rfl
    | some key =>
      simp only [Option.map_some, Option.bind_some, run?_bind, run?_within, hread]
      cases result body with
      | none => rfl
      | some x => cases hresult : fields.mapM (member? result) <;> simp [hrest, hresult]

section Parts

variable {cs : List Char} {depth : Nat}

/-- The items of an array are kept one by one. -/
theorem ItemTexts.makes {texts : List (List Char)} (hcs : ItemTexts true texts cs)
    (hwritten : ∀ text ∈ texts, ∃ outline, Written outline text)
    (hkept : ∀ text ∈ texts, Makes (value depth) text (kept? depth text)) :
    Makes (value (depth + 1)) ('[' :: cs) ((texts.mapM (kept? depth)).map .array) := by
  refine makes_cons (by decide) @fun input rest hshown _ => ?_
  have hitems := hcs.run?_items hwritten hkept [] rfl ((cs.map some ++ rest).length + 1)
    (Nat.lt_succ_of_le (by simp)) rest
  rw [run?_value_array hshown, hitems, Option.map_map, Option.map_map]
  rfl

/-- The fields of an object are kept one by one. -/
theorem FieldTexts.makes {fields : List (List Char × List Char)} (hcs : FieldTexts true fields cs)
    (hnames : ∀ field ∈ fields, IsString field.1)
    (hkept : ∀ field ∈ fields, Makes (value depth) field.2 (kept? depth field.2)) :
    Makes (value (depth + 1)) ('\x7b' :: cs)
      ((fields.mapM (member? (kept? depth))).map .object) := by
  refine makes_cons (by decide) @fun input rest hshown _ => ?_
  have hmembers := hcs.run?_members hnames hkept [] rfl ((cs.map some ++ rest).length + 1)
    (Nat.lt_succ_of_le (by simp)) rest
  rw [run?_value_object hshown, hmembers, Option.map_map, Option.map_map]
  rfl

theorem makes_value_zero {c : Char} (hc : c = '[' ∨ c = '\x7b') :
    Makes (value 0) (c :: cs) none :=
  makes_cons (by obtain rfl | rfl := hc <;> decide) fun hshown _ => run?_value_zero hc hshown

end Parts

namespace Written

variable {outline : Outline} {cs : List Char}

/-- What is kept of a text. -/
theorem makes (h : Written outline cs) (depth : Nat) :
    Makes (value depth) cs (kept? depth cs) := by
  -- By induction on the text; each array and each object takes one from the depth.
  induction h generalizing depth with
  | null => exact ((interprets_value depth).makes .null).kept
  | true => exact ((interprets_value depth).makes .true).kept
  | false => exact ((interprets_value depth).makes .false).kept
  | number => exact ((interprets_value depth).makes .number).kept
  | string hstring => exact (hstring.makes depth).kept
  | array hitems hcs ih =>
    cases depth with
    | zero => exact (makes_value_zero (.inl rfl)).kept
    | succ depth =>
      exact (hcs.makes (fun item h => ⟨_, hitems item h⟩) fun item h => ih item h depth).kept
  | object hnames hvalues hcs ih =>
    cases depth with
    | zero => exact (makes_value_zero (.inr rfl)).kept
    | succ depth => exact (hcs.makes hnames fun field h => ih field h depth).kept

/-- What is deferrable wherever a text stands makes of the text what is decoded from the value that
is kept of it. -/
theorem makes_of_deferrable (h : Written outline cs) {reader : Reader α}
    {decode : Value → Option α} {depth : Nat}
    (hdefers : ∀ {b : List Char} (rest : Input), Blanks b →
      Deferrable reader decode depth (b.map some ++ (cs.map some ++ rest))) :
    Makes reader cs ((kept? depth cs).bind decode) := by
  intro b rest hb hrest
  rw [hdefers rest hb, h.makes depth hb hrest]
  cases kept? depth cs <;> simp

/-- An object is kept of the text of an object, field by field. -/
theorem fields_of_kept (h : Written outline cs) {depth : Nat} {entries : List (String × Value)}
    (hkept : kept? depth cs = some (.object entries)) :
    ∃ fields inner, outline = .object fields ∧
      fields.mapM (member? (kept? inner)) = some entries := by
  obtain ⟨c, more, rfl, hopens, hblank, -⟩ := id h.opens
  have hshown : run? blanks (some c :: more.map some) =
      some ((some c :: more.map some).head?, some c :: more.map some) := run?_blanks_cons hblank _
  have hrun := h.makes depth blanks_nil ends_nil
  simp only [hkept, List.map_nil, List.nil_append, List.append_nil, List.map_cons] at hrun
  -- An object is kept, so the text begins with a brace.
  obtain ⟨c', hc, hvalue⟩ := run?_value_opens hshown hrun
  obtain rfl : c = c' := by simpa using hc
  obtain rfl : c = '\x7b' := hvalue
  cases outline with
  | scalar => exact absurd rfl hopens.2
  | array items => exact absurd hopens (by simp [Outline.Opens])
  | object fields =>
    refine ⟨fields, ?_⟩
    cases h with
    | object hnames hvalues hcs =>
      cases depth with
      | zero =>
        rw [(makes_value_zero (.inr rfl)).kept?_eq] at hkept
        cases hkept
      | succ depth =>
        have hobject := hcs.makes hnames fun field h => (hvalues field h).makes depth
        rw [hobject.kept?_eq] at hkept
        obtain ⟨_, hfields, ⟨⟩⟩ := Option.map_eq_some_iff.mp hkept
        exact ⟨depth, rfl, hfields⟩

/-- A kept value maps a word to an empty object only if the text does. -/
theorem isEmptyEntry (h : Written outline cs) {depth : Nat} {name : String}
    (hkept : kept? depth cs = some (.object [(name, .object [])])) : IsEmptyEntry cs := by
  obtain ⟨fields, depth', rfl, hfields⟩ := h.fields_of_kept hkept
  match fields, hfields, h with
  | [(name', inner)], hfields, h =>
    have hentry : member? (kept? depth') (name', inner) = some (name, .object []) := by
      simpa [Option.bind_eq_some_iff] using hfields
    obtain ⟨-, hinner⟩ : name? name' = some name ∧ kept? depth' inner = some (.object []) := by
      simpa [member?, Option.bind_eq_some_iff] using hentry
    obtain ⟨outline, hwritten⟩ := h.field (List.mem_singleton_self _)
    obtain ⟨fields, depth, rfl, hnil⟩ := hwritten.fields_of_kept hinner
    obtain rfl : fields = [] := List.length_eq_zero_iff.mp (length_of_mapM hnil).symm
    exact ⟨name', inner, h, hwritten⟩
  | [], hfields, _ => simp at hfields
  | _ :: _ :: _, hfields, _ => simpa using length_of_mapM hfields

end Written

end RoomRelay.Json
