import RoomRelay.Json.Printer
import RoomRelay.Proofs.Json.Tree

/-!
# What is printed spells the value

A value is printed in one way among those in which it can be spelt: strings with as few escapes as
possible, integers by their digits, and no blanks at all. So whatever is read alike in all spellings
can be read back from a printed text.

## Main definitions

* `Numeral.ofInt` — the numeral of an integer
* `Value.tree?` — the tree of a value, if its numbers are integers of 64 bits

## Main results

* `quoted_spells` — a printed string spells the string
* `Value.spells_chars` — a printed value spells its tree
* `Value.value?_of_tree?` — the tree denotes the value
-/

namespace RoomRelay.Json

/-! ### Strings -/

/-- A number of 16 bits is told from its last four digits. -/
theorem ofDigits_digits {n : Nat} (h : n < 0x10000) : Hex.ofDigits (Hex.digits 4 n) = n := by
  simp [Hex.digits, Hex.ofDigits, Fin.ofNat]
  omega

theorem spellsUnit_text {n : Nat} (h : n < 0x10000) : SpellsUnit n (Hex.text 4 n) := by
  refine ⟨Hex.digits 4 n, Hex.length_digits 4 n, ofDigits_digits h, ?_⟩
  rw [Hex.text, List.forall₂_map_right_iff, List.forall₂_same]
  exact fun d _ => .inl rfl

/-- A character is printed in one of the ways to write it. -/
theorem letter_escaped (c : Char) : Letter c (escaped c) := by
  unfold escaped
  -- Seven characters have short escapes, and the others below the blank are escaped by their codes.
  split_ifs with hquote hslash hback htab hline hfeed hreturn hcontrol
  · subst hquote
    exact .short (by decide)
  · subst hslash
    exact .short (by decide)
  · subst hback
    exact .short (by decide)
  · subst htab
    exact .short (by decide)
  · subst hline
    exact .short (by decide)
  · subst hfeed
    exact .short (by decide)
  · subst hreturn
    exact .short (by decide)
  · exact .unit (spellsUnit_text (by omega))
  · exact .plain hquote hslash (Nat.not_lt.mp hcontrol)

theorem letters_escaped (cs : List Char) : Letters cs (cs.flatMap escaped) := by
  induction cs with
  | nil => exact .nil
  | cons c cs ih => exact .cons (letter_escaped c) ih

/-- A printed string spells the string. -/
theorem quoted_spells (text : String) : Quoted text (quoted text) :=
  ⟨_, letters_escaped text.toList, rfl⟩

/-! ### Integers -/

theorem areDigits_toDigits (n : Nat) : AreDigits (Nat.toDigits 10 n) :=
  ⟨Nat.toDigits_ne_nil, fun _ hc => Nat.isDigit_of_mem_toDigits (by decide) (by decide) hc⟩

/-- Only zero begins with a zero. -/
theorem eq_zero_of_head?_toDigits {n : Nat} (h : (Nat.toDigits 10 n).head? = some '0') : n = 0 := by
  induction n using Nat.strongRecOn with
  | ind n ih =>
    -- The first digit stays the first one while digits are cut off at the end.
    rw [Nat.toDigits_eq_if (by decide)] at h
    split at h
    · next hlt =>
      have hdigit : ∀ m < 10, m.digitChar = '0' → m = 0 := by decide
      exact hdigit n hlt (by simpa using h)
    · next hge =>
      rw [List.head?_append_of_ne_nil _ Nat.toDigits_ne_nil] at h
      have := ih (n / 10) (by omega) h
      omega

namespace Numeral

/-- The numeral of an integer. -/
def ofInt (n : Int) : Numeral where
  negative := n < 0
  whole := Nat.toDigits 10 n.natAbs
  fraction := none
  power := none
  whole_areDigits := areDigits_toDigits _
  whole_zero h := by rw [eq_zero_of_head?_toDigits h]; rfl
  fraction_areDigits _ h := nomatch h

theorem chars_ofInt (n : Int) : (ofInt n).chars = (toString n).toList := by
  rw [Int.toString_eq_repr, Int.repr_eq_if]
  by_cases hnegative : n < 0
  · rw [if_neg (by omega), show (-n).toNat = n.natAbs by omega]
    simp [chars, tail, ofInt, hnegative]
  · rw [if_pos (by omega), show n.toNat = n.natAbs by omega]
    simp [chars, tail, ofInt, hnegative]

theorem toInt_ofInt (n : Int) : (ofInt n).toInt = n := by
  simp only [toInt, magnitude, ofInt, Nat.ofDigitChars_ten_toDigits, decide_eq_true_eq]
  split <;> omega

/-- The numeral of an integer of 64 bits denotes the integer. -/
theorem integer?_ofInt {n : Int} (hleast : -9223372036854775808 ≤ n)
    (hgreatest : n ≤ 18446744073709551615) : (ofInt n).integer? = some (.int n) := by
  rw [integer?, toInt_ofInt, if_pos]
  refine ⟨rfl, fun hnegative => ?_, hleast, hgreatest⟩
  simp only [ofInt, decide_eq_true_eq] at hnegative
  simp only [magnitude, ofInt, Nat.ofDigitChars_ten_toDigits]
  omega

end Numeral

/-! ### Values -/

namespace Value

mutual

/-- The tree of a value as it is printed, if all numbers in it are integers of 64 bits, with or
without a sign. -/
def tree? : Value → Option Tree
  | null => some .null
  | bool b => some (.bool b)
  | number (.int n) =>
    if -9223372036854775808 ≤ n ∧ n ≤ 18446744073709551615 then some (.number (.ofInt n)) else none
  | number (.float _) => none
  | string text => some (.string text)
  | array items => (itemTrees? items).map .array
  | object fields => (fieldTrees? fields).map .object

/-- The trees of the items. -/
def itemTrees? : List Value → Option (List Tree)
  | [] => some []
  | item :: items => (tree? item).bind fun tree => (itemTrees? items).map (tree :: ·)

/-- The fields with the trees of their values. -/
def fieldTrees? : List (String × Value) → Option (List (String × Tree))
  | [] => some []
  | (key, value) :: fields =>
    (tree? value).bind fun tree => (fieldTrees? fields).map ((key, tree) :: ·)

end

end Value

/-- The parts after the first one each have a comma in front. -/
theorem commas_cons (part : List Char) (parts : List (List Char)) :
    commas (part :: parts) = part ++ parts.flatMap (',' :: ·) := by
  induction parts generalizing part with
  | nil => simp [commas]
  | cons next parts ih => rw [commas, ih, List.flatMap_cons, List.cons_append]; simp

/-- What stands between two parts. -/
theorem lead_comma : Lead false [','] := .next blanks_nil blanks_nil

mutual

/-- A printed value spells its tree. -/
theorem Value.spells_chars : (v : Value) → {tree : Tree} → v.tree? = some tree →
    Spells tree v.chars
  | .null, _, h => by
    obtain rfl := Option.some.inj h
    exact .null
  | .bool true, _, h => by
    obtain rfl := Option.some.inj h
    exact .true
  | .bool false, _, h => by
    obtain rfl := Option.some.inj h
    exact .false
  | .number (.int n), tree, h => by
    rw [Value.tree?] at h
    split at h
    · obtain rfl := Option.some.inj h
      rw [Value.chars, Number.chars, ← Numeral.chars_ofInt]
      exact .number
    · cases h
  | .number (.float _), _, h => nomatch h
  | .string text, _, h => by
    obtain rfl := Option.some.inj h
    exact .string (quoted_spells text)
  | .array [], tree, h => by
    obtain rfl := Option.some.inj h
    exact .array (.nil blanks_nil)
  | .array (item :: items), tree, h => by
    simp only [Value.tree?, Value.itemTrees?, Option.map_eq_some_iff, Option.bind_eq_some_iff] at h
    obtain ⟨_, ⟨first, hfirst, rest, hrest, rfl⟩, rfl⟩ := h
    have hitems := Items.cons (.first blanks_nil) (item.spells_chars hfirst)
      (Value.items_chars items hrest)
    simpa [Value.chars, Value.itemChars, commas_cons] using Spells.array hitems
  | .object [], tree, h => by
    obtain rfl := Option.some.inj h
    exact .object (.nil blanks_nil)
  | .object ((key, value) :: fields), tree, h => by
    simp only [Value.tree?, Value.fieldTrees?, Option.map_eq_some_iff,
      Option.bind_eq_some_iff] at h
    obtain ⟨_, ⟨first, hfirst, rest, hrest, rfl⟩, rfl⟩ := h
    have hfields := Members.cons (.first blanks_nil) (quoted_spells key) blanks_nil blanks_nil
      (value.spells_chars hfirst) (Value.members_chars fields hrest)
    simpa [Value.chars, Value.fieldChars, commas_cons] using Spells.object hfields

/-- The items after the first one. -/
theorem Value.items_chars : (items : List Value) → {trees : List Tree} →
    Value.itemTrees? items = some trees →
    Items false trees ((Value.itemChars items).flatMap (',' :: ·) ++ [']'])
  | [], _, h => by
    obtain rfl := Option.some.inj h
    exact .nil blanks_nil
  | item :: items, trees, h => by
    simp only [Value.itemTrees?, Option.map_eq_some_iff, Option.bind_eq_some_iff] at h
    obtain ⟨first, hfirst, rest, hrest, rfl⟩ := h
    have hitems := Items.cons lead_comma (item.spells_chars hfirst) (Value.items_chars items hrest)
    simpa [Value.itemChars] using hitems

/-- The fields after the first one. -/
theorem Value.members_chars : (fields : List (String × Value)) →
    {trees : List (String × Tree)} → Value.fieldTrees? fields = some trees →
    Members false trees ((Value.fieldChars fields).flatMap (',' :: ·) ++ ['\x7d'])
  | [], _, h => by
    obtain rfl := Option.some.inj h
    exact .nil blanks_nil
  | (key, value) :: fields, trees, h => by
    simp only [Value.fieldTrees?, Option.map_eq_some_iff, Option.bind_eq_some_iff] at h
    obtain ⟨first, hfirst, rest, hrest, rfl⟩ := h
    have hfields := Members.cons lead_comma (quoted_spells key) blanks_nil blanks_nil
      (value.spells_chars hfirst) (Value.members_chars fields hrest)
    simpa [Value.fieldChars] using hfields

end

mutual

/-- The tree of a value denotes the value. -/
theorem Value.value?_of_tree? : (v : Value) → {tree : Tree} → v.tree? = some tree →
    tree.value? Numeral.integer? = some v
  | .null, _, h | .bool _, _, h | .string _, _, h => by
    obtain rfl := Option.some.inj h
    rfl
  | .number (.int n), tree, h => by
    rw [Value.tree?] at h
    split at h
    · next hrange =>
      obtain rfl := Option.some.inj h
      rw [Tree.value?, Numeral.integer?_ofInt hrange.1 hrange.2]
      rfl
    · cases h
  | .number (.float _), _, h => nomatch h
  | .array items, tree, h => by
    obtain ⟨trees, htrees, rfl⟩ := Option.map_eq_some_iff.mp h
    rw [Tree.value?, Value.itemValues?_of_trees items htrees]
    rfl
  | .object fields, tree, h => by
    obtain ⟨trees, htrees, rfl⟩ := Option.map_eq_some_iff.mp h
    rw [Tree.value?, Value.fieldValues?_of_trees fields htrees]
    rfl

theorem Value.itemValues?_of_trees : (items : List Value) → {trees : List Tree} →
    Value.itemTrees? items = some trees → Tree.itemValues? Numeral.integer? trees = some items
  | [], _, h => by
    obtain rfl := Option.some.inj h
    rfl
  | item :: items, trees, h => by
    simp only [Value.itemTrees?, Option.map_eq_some_iff, Option.bind_eq_some_iff] at h
    obtain ⟨first, hfirst, rest, hrest, rfl⟩ := h
    simp [Tree.itemValues?, item.value?_of_tree? hfirst, Value.itemValues?_of_trees items hrest]

theorem Value.fieldValues?_of_trees : (fields : List (String × Value)) →
    {trees : List (String × Tree)} → Value.fieldTrees? fields = some trees →
    Tree.fieldValues? Numeral.integer? trees = some fields
  | [], _, h => by
    obtain rfl := Option.some.inj h
    rfl
  | (key, value) :: fields, trees, h => by
    simp only [Value.fieldTrees?, Option.map_eq_some_iff, Option.bind_eq_some_iff] at h
    obtain ⟨first, hfirst, rest, hrest, rfl⟩ := h
    simp [Tree.fieldValues?, value.value?_of_tree? hfirst, Value.fieldValues?_of_trees fields hrest]

end

end RoomRelay.Json
