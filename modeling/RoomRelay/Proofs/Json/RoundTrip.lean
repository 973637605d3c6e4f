import RoomRelay.Proofs.Json.Printing
import RoomRelay.Proofs.Json.Records

/-!
# Printed values are read back

A value whose numbers are integers of 64 bits is printed as a text of the grammar, and the reader
for values gets the same value out of it again. There is no limit on how deep it nests, and strings
may hold any characters.

## Main definitions

* `Value.numbers` — the numbers in a value
* `Number.IsInteger` — an integer of 64 bits, with or without a sign

## Main results

* `toOption_parseWith_of_isText` — a text is read as what its tree means to the reader
* `Value.exists_tree` — which values have a tree
* `Value.parseValue_render` — a printed value is read back
-/

namespace RoomRelay.Json

variable {α : Type} {reader : Reader α} {meaning : Tree → Option α} {text : String} {tree : Tree}

/-- A whole text is read as what its tree means to the reader. -/
theorem toOption_parseWith_of_isText (h : Interprets reader meaning) (htext : IsText text tree) :
    (parseWith reader text).toOption = meaning tree := by
  obtain ⟨b, cs, b', hb, hcs, hb', heq⟩ := htext
  have hread := h hb hcs hb'.ends_nil
  have hfinish := run?_blanks_append hb' []
  simp only [List.append_nil, run?_blanks_nil] at hfinish
  rw [toOption_parseWith, Text.symbols, heq, List.map_append, List.map_append, run?_seqLeft, hread]
  cases meaning tree <;> simp [finish, hfinish]

/-- An integer of 64 bits, with or without a sign. -/
def Number.IsInteger (x : Number) : Prop :=
  ∃ n : Int, x = .int n ∧ -9223372036854775808 ≤ n ∧ n ≤ 18446744073709551615

namespace Value

variable {v : Value}

mutual

/-- The numbers in a value. -/
def numbers : Value → List Number
  | number x => [x]
  | array items => itemNumbers items
  | object fields => fieldNumbers fields
  | _ => []

/-- The numbers in the items. -/
def itemNumbers : List Value → List Number
  | [] => []
  | item :: items => numbers item ++ itemNumbers items

/-- The numbers in the values of the fields. -/
def fieldNumbers : List (String × Value) → List Number
  | [] => []
  | (_, value) :: fields => numbers value ++ fieldNumbers fields

end

mutual

/-- A value has a tree if its numbers are integers. -/
theorem exists_tree : (v : Value) → (∀ x ∈ v.numbers, x.IsInteger) → ∃ tree, v.tree? = some tree
  | null, _ | bool _, _ | string _, _ => ⟨_, rfl⟩
  | number x, h => by
    obtain ⟨n, rfl, hrange⟩ := h x (by simp [numbers])
    exact ⟨_, by rw [tree?, if_pos hrange]⟩
  | array items, h => by
    obtain ⟨trees, htrees⟩ := exists_itemTrees items h
    exact ⟨.array trees, by rw [tree?, htrees]; rfl⟩
  | object fields, h => by
    obtain ⟨trees, htrees⟩ := exists_fieldTrees fields h
    exact ⟨.object trees, by rw [tree?, htrees]; rfl⟩

theorem exists_itemTrees : (items : List Value) → (∀ x ∈ itemNumbers items, x.IsInteger) →
    ∃ trees, itemTrees? items = some trees
  | [], _ => ⟨_, rfl⟩
  | item :: items, h => by
    simp only [itemNumbers, List.forall_mem_append] at h
    obtain ⟨tree, htree⟩ := exists_tree item h.1
    obtain ⟨trees, htrees⟩ := exists_itemTrees items h.2
    exact ⟨tree :: trees, by rw [itemTrees?, htree, htrees]; rfl⟩

theorem exists_fieldTrees : (fields : List (String × Value)) →
    (∀ x ∈ fieldNumbers fields, x.IsInteger) → ∃ trees, fieldTrees? fields = some trees
  | [], _ => ⟨_, rfl⟩
  | (key, value) :: fields, h => by
    simp only [fieldNumbers, List.forall_mem_append] at h
    obtain ⟨tree, htree⟩ := exists_tree value h.1
    obtain ⟨trees, htrees⟩ := exists_fieldTrees fields h.2
    exact ⟨(key, tree) :: trees, by rw [fieldTrees?, htree, htrees]; rfl⟩

end

/-- The tree of a printed value keeps the value, if it is not too deep. -/
theorem valueWithin?_of_tree? {depth : Nat} (h : v.tree? = some tree)
    (hdepth : tree.depth ≤ depth) : tree.valueWithin? depth = some v := by
  have hvalue := @Tree.value?_mono _ Numeral.number?
    (fun {n x} hx => n.number?_of_integer? hx) tree _ (v.value?_of_tree? h)
  rw [Tree.valueWithin?, if_pos hdepth, hvalue]

/-- A printed value is a text that spells its tree. -/
theorem isText_render (h : v.tree? = some tree) : IsText v.render tree :=
  ⟨[], v.chars, [], blanks_nil, v.spells_chars h, blanks_nil, by simp [render]⟩

/-- A printed value is read back, as deep as it may be. -/
theorem parseValue_render (integers : ∀ x ∈ v.numbers, x.IsInteger) :
    parseValue v.render = .ok v := by
  obtain ⟨tree, htree⟩ := v.exists_tree integers
  have hdepth : tree.depth ≤ v.render.length := by
    simpa [render] using (v.spells_chars htree).depth_le
  have hread := toOption_parseWith_of_isText (interprets_value v.render.length)
    (isText_render htree)
  rw [valueWithin?_of_tree? htree hdepth] at hread
  unfold parseValue
  cases hresult : parseWith (value v.render.length) v.render with
  | ok w =>
    rw [hresult] at hread
    exact congrArg Except.ok (Option.some.inj hread)
  | error fault => simp [hresult, Except.toOption] at hread

/-- However a printed value is taken apart, it denotes the same value. -/
theorem value?_of_isText_render (integers : ∀ x ∈ v.numbers, x.IsInteger)
    (htext : IsText v.render tree) : tree.value? Numeral.number? = some v := by
  have hread := toOption_parseWith_of_isText (interprets_value v.render.length) htext
  have hparsed : parseWith (value v.render.length) v.render = .ok v := parseValue_render integers
  rw [hparsed, Tree.valueWithin?] at hread
  split at hread
  · exact hread.symm
  · cases hread

end Value

end RoomRelay.Json
