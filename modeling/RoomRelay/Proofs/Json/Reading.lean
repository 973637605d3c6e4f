import RoomRelay.Json.Shape
import RoomRelay.Proofs.Json.Tokens

/-!
# Reading the values of a text

A reader of values makes the same of every text that spells a tree, however the text is spaced and
its strings are escaped: what it makes is a function of the tree, its *meaning* to the reader. This
file gives the meaning of trees to the readers of values and to the shapes of fields.

## Main definitions

* `Interprets` — what a reader makes of a text is the meaning of the tree that the text spells
* `Tree.valueWithin?`, `Tree.text?`, `Tree.flag?`, `Tree.choice?`, `Tree.optional?` — the meanings

## Main results

* `interprets_value` — a value is kept if it does not nest too deep
* `interprets_skipValue` — a value that nobody wants is passed over, however deep it nests
* `interprets_text`, `interprets_flag`, `interprets_any`, `interprets_optional`,
  `interprets_choice` — the shapes of fields
-/

namespace RoomRelay.Json

variable {α β : Type}

/-- A reader makes the meaning of a tree of every text that spells the tree, with blanks in front,
and leaves what follows. It fails on a tree without meaning. -/
def Interprets (reader : Reader α) (meaning : Tree → Option α) : Prop :=
  ∀ ⦃tree : Tree⦄ ⦃b cs : List Char⦄ ⦃rest : Input⦄, Blanks b → Spells tree cs → Ends rest →
    run? reader (b.map some ++ (cs.map some ++ rest)) = (meaning tree).map (·, rest)

namespace Interprets

variable {reader : Reader α} {meaning : Tree → Option α}

theorem congr (h : Interprets reader meaning) {meaning' : Tree → Option α}
    (heq : ∀ tree, meaning tree = meaning' tree) : Interprets reader meaning' := by
  intro tree b cs rest hb hcs hrest
  rw [← heq]
  exact h hb hcs hrest

theorem map (h : Interprets reader meaning) (f : α → β) :
    Interprets (f <$> reader) fun tree => (meaning tree).map f := by
  intro tree b cs rest hb hcs hrest
  rw [run?_map, h hb hcs hrest, Option.map_map, Option.map_map]
  rfl

theorem bind_pure (h : Interprets reader meaning) (f : α → β) :
    Interprets (reader >>= fun x => pure (f x)) fun tree => (meaning tree).map f := by
  rw [← map_eq_pure_bind]
  exact h.map f

end Interprets

/-! ### What follows a value -/

theorem ends_cons {c : Char} (hdigit : c.isDigit = false)
    (hc : c ∉ ['.', 'e', 'E']) (rest : Input) : Ends (some c :: rest) := by
  intro d hd
  obtain rfl : c = d := by simpa using hd
  simp only [List.mem_cons, List.not_mem_nil, or_false, not_or] at hc
  exact ⟨hdigit, hc⟩

/-- Blanks and a mark end a numeral. -/
theorem Blanks.ends {b : List Char} (hb : Blanks b) {c : Char} (hc : c ∈ [',', ':', ']', '\x7d'])
    (rest : Input) : Ends (b.map some ++ some c :: rest) := by
  cases b with
  | nil =>
    simp only [List.mem_cons, List.not_mem_nil, or_false] at hc
    obtain rfl | rfl | rfl | rfl := hc <;> exact ends_cons (by decide) (by decide) rest
  | cons d b =>
    have hd := hb d (by simp)
    simp only [List.mem_cons, List.not_mem_nil, or_false] at hd
    obtain rfl | rfl | rfl | rfl := hd <;> exact ends_cons (by decide) (by decide) _

/-- Blanks at the end of a text end a numeral. -/
theorem Blanks.ends_nil {b : List Char} (hb : Blanks b) : Ends (b.map some) := by
  cases b with
  | nil => simp [Ends]
  | cons c b =>
    have hc := hb c (by simp)
    simp only [List.mem_cons, List.not_mem_nil, or_false] at hc
    obtain rfl | rfl | rfl | rfl := hc <;> exact ends_cons (by decide) (by decide) _

theorem Lead.ends {lead : List Char} (h : Lead false lead) (rest : Input) :
    Ends (lead.map some ++ rest) := by
  cases h with
  | @next b b' hb _ =>
    have := hb.ends (c := ',') (by decide) (b'.map some ++ rest)
    simpa using this

theorem Items.ends {items : List Tree} {cs : List Char} (h : Items false items cs) (rest : Input) :
    Ends (cs.map some ++ rest) := by
  cases h with
  | nil hb => simpa using hb.ends (c := ']') (by decide) rest
  | cons hlead _ _ => simpa using hlead.ends _

theorem Members.ends {fields : List (String × Tree)} {cs : List Char} (h : Members false fields cs)
    (rest : Input) : Ends (cs.map some ++ rest) := by
  cases h with
  | nil hb => simpa using hb.ends (c := '\x7d') (by decide) rest
  | cons hlead _ _ _ _ _ => simpa using hlead.ends _

theorem Spells.length_pos {tree : Tree} {cs : List Char} (h : Spells tree cs) : 0 < cs.length := by
  obtain ⟨c, more, rfl, -⟩ := h.opens
  exact Nat.succ_pos _

/-! ### Values that are kept -/

/-- The items of an array are read one by one. -/
theorem Interprets.items {item : Reader α} {meaning : Tree → Option α}
    (h : Interprets item meaning) {first : Bool} {trees : List Tree} {cs : List Char}
    (hcs : Items first trees cs) (before : List α) (hfirst : before.isEmpty = first) (turns : Nat)
    (hturns : cs.length < turns) (rest : Input) :
    run? (items item turns before) (cs.map some ++ rest) =
      (trees.mapM meaning).map fun xs => (before.reverse ++ xs, rest) := by
  induction trees generalizing first cs before turns with
  | nil =>
    obtain ⟨turns, rfl⟩ := Nat.exists_eq_add_one.mpr (Nat.zero_lt_of_lt hturns)
    cases hcs with
    | nil hb =>
      have := run?_nextItem_nil before.isEmpty hb rest
      simp [Json.items, this]
  | cons tree trees ih =>
    obtain ⟨turns, rfl⟩ := Nat.exists_eq_add_one.mpr (Nat.zero_lt_of_lt hturns)
    cases hcs with
    | @cons _ _ _ lead cs rest' hlead hcs hmore =>
      have hnext := run?_nextItem_cons hlead hcs (rest'.map some ++ rest)
      have hitem := h blanks_nil hcs (hmore.ends rest)
      have hlength := hcs.length_pos
      have hrest := fun x => ih hmore (x :: before) rfl turns (by simp at hturns; omega)
      subst hfirst
      simp only [List.map_append, List.append_assoc, List.map_nil, List.nil_append] at hnext hitem ⊢
      simp only [Json.items, run?_bind, hnext, Option.bind_some, if_true, run?_within, hitem,
        List.mapM_cons]
      cases meaning tree with
      | none => rfl
      | some x => cases hmeaning : trees.mapM meaning <;> simp [hrest, hmeaning]

/-- The value after a key is read behind its colon. -/
theorem Interprets.afterColon {item : Reader α} {meaning : Tree → Option α}
    (h : Interprets item meaning) {b b' cs : List Char} (hb : Blanks b) (hb' : Blanks b')
    {tree : Tree} (hcs : Spells tree cs) {rest : Input} (hrest : Ends rest) :
    run? (colon *> item) (b.map some ++ some ':' :: (b'.map some ++ (cs.map some ++ rest))) =
      (meaning tree).map (·, rest) := by
  rw [run?_seqRight, run?_colon hb, Option.bind_some, h hb' hcs hrest]

/-- The fields of an object are read one by one. -/
theorem Interprets.members {item : Reader α} {meaning : Tree → Option α}
    (h : Interprets item meaning) {first : Bool} {fields : List (String × Tree)} {cs : List Char}
    (hcs : Members first fields cs) (before : List (String × α)) (hfirst : before.isEmpty = first)
    (turns : Nat) (hturns : cs.length < turns) (rest : Input) :
    run? (members item turns before) (cs.map some ++ rest) =
      (fields.mapM fun field => (meaning field.2).map (field.1, ·)).map
        fun xs => (before.reverse ++ xs, rest) := by
  induction fields generalizing first cs before turns with
  | nil =>
    obtain ⟨turns, rfl⟩ := Nat.exists_eq_add_one.mpr (Nat.zero_lt_of_lt hturns)
    cases hcs with
    | nil hb =>
      have := run?_nextKey_nil before.isEmpty hb rest
      simp [Json.members, this]
  | cons field fields ih =>
    obtain ⟨turns, rfl⟩ := Nat.exists_eq_add_one.mpr (Nat.zero_lt_of_lt hturns)
    cases hcs with
    | @cons _ key tree _ lead name b b' cs rest' hlead hname hb hb' hcs hmore =>
      have hnext := run?_nextKey_cons hlead hname
        (b.map some ++ some ':' :: (b'.map some ++ (cs.map some ++ (rest'.map some ++ rest))))
      have hitem := h.afterColon hb hb' hcs (hmore.ends rest)
      have hrest := fun x => ih hmore ((key, x) :: before) rfl turns (by simp at hturns; omega)
      subst hfirst
      simp only [List.map_append, List.map_cons, List.append_assoc, List.cons_append] at hnext ⊢
      simp only [Json.members, run?_bind, run?_within, hnext, Option.bind_some, hitem,
        List.mapM_cons]
      cases meaning tree with
      | none => rfl
      | some x =>
        cases hmeaning : fields.mapM fun field => (meaning field.2).map (field.1, ·) <;>
          simp [hrest, hmeaning]

/-- The value of a tree, if it nests no deeper than is allowed. -/
def Tree.valueWithin? (depth : Nat) (tree : Tree) : Option Value :=
  if tree.depth ≤ depth then tree.value? Numeral.number? else none

/-- The value of a tree, if there is a meaning for the trees inside it. -/
def Tree.valueAround? (nested : Option (Tree → Option Value)) : Tree → Option Value
  | .null => some .null
  | .bool b => some (.bool b)
  | .number n => n.number?.map .number
  | .string text => some (.string text)
  | .array items => nested.bind fun meaning => (items.mapM meaning).map .array
  | .object fields => nested.bind fun meaning =>
    (fields.mapM fun field => (meaning field.2).map (field.1, ·)).map .object

/-- A numeral begins with a minus sign or a digit. -/
theorem Tree.Opens.of_number {n : Numeral} {c : Char} (h : (Tree.number n).Opens c) :
    (c = '-' ∨ (digit? (some c)).isSome = true) ∧
      c ≠ 'n' ∧ c ≠ 't' ∧ c ≠ 'f' ∧ c ≠ '"' ∧ c ≠ '[' ∧ c ≠ '\x7b' := by
  obtain rfl | hc := h
  · decide
  · refine ⟨.inr (by rw [digit?_of_isDigit hc]; rfl), ?_⟩
    refine ⟨?_, ?_, ?_, ?_, ?_, ?_⟩ <;> (rintro rfl; simp at hc)

theorem interprets_valueAround (nested : Option (Reader Value)) (meaning : Tree → Option Value)
    (h : ∀ inner ∈ nested, Interprets inner meaning) :
    Interprets (valueAround nested) (Tree.valueAround? (nested.map fun _ => meaning)) := by
  intro tree b cs rest hb hcs hrest
  obtain ⟨c, more, hcons, hopens⟩ := hcs.opens
  have hshown := run?_blanks_cons hopens.not_mem.1 (more.map some ++ rest)
  unfold valueAround
  rw [run?_blanks_bind_append hb, run?_bind, hcons, List.map_cons, List.cons_append, hshown,
    Option.bind_some]
  cases hcs with
  | null | true | false =>
    obtain ⟨rfl, rfl⟩ := List.cons.inj hcons
    simp [word, Tree.valueAround?]
  | @number n =>
    have hread := n.run?_numeral hrest
    obtain ⟨hdigit, hc⟩ := hopens.of_number
    rw [hcons, List.map_cons, List.cons_append] at hread
    simp [hdigit, hc, hread, Tree.valueAround?, Function.comp_def]
  | @string text _ hquoted =>
    obtain rfl : c = '"' := hopens
    rw [hcons] at hquoted
    simp [run?_string hquoted, Tree.valueAround?]
  | @array items cs hitems =>
    obtain ⟨rfl, rfl⟩ := List.cons.inj hcons
    cases nested with
    | none => simp [Tree.valueAround?, digit?_some]
    | some inner =>
      have hread := (h inner rfl).items hitems [] rfl (cs.length + rest.length + 1) (by omega) rest
      simp [Tree.valueAround?, digit?_some, hread, Function.comp_def]
  | @object fields cs hmembers =>
    obtain ⟨rfl, rfl⟩ := List.cons.inj hcons
    cases nested with
    | none => simp [Tree.valueAround?, digit?_some]
    | some inner =>
      have hread := (h inner rfl).members hmembers [] rfl (cs.length + rest.length + 1) (by omega)
        rest
      simp [Tree.valueAround?, digit?_some, hread, Function.comp_def]

namespace Tree

/-- Items nest no deeper than is allowed if each of them does not. -/
theorem mapM_valueWithin? (depth : Nat) (items : List Tree) :
    items.mapM (valueWithin? depth) =
      if itemDepth items ≤ depth then itemValues? Numeral.number? items else none := by
  induction items with
  | nil => rfl
  | cons item items ih =>
    simp only [List.mapM_cons, ih, valueWithin?, itemDepth, itemValues?, Nat.max_le]
    by_cases hitem : item.depth ≤ depth <;> by_cases hitems : itemDepth items ≤ depth <;>
      simp [hitem, hitems]

theorem mapM_field_valueWithin? (depth : Nat) (fields : List (String × Tree)) :
    (fields.mapM fun field => (field.2.valueWithin? depth).map (field.1, ·)) =
      if fieldDepth fields ≤ depth then fieldValues? Numeral.number? fields else none := by
  induction fields with
  | nil => rfl
  | cons field fields ih =>
    obtain ⟨key, tree⟩ := field
    rw [List.mapM_cons, ih]
    simp only [valueWithin?, fieldDepth, fieldValues?, Nat.max_le]
    by_cases htree : tree.depth ≤ depth <;> by_cases hfields : fieldDepth fields ≤ depth <;>
      cases tree.value? Numeral.number? <;> simp [htree, hfields]

theorem valueAround?_zero : valueAround? none = valueWithin? 0 := by
  funext tree
  cases tree <;> simp [valueAround?, valueWithin?, depth, value?]

theorem valueAround?_succ (n : Nat) :
    valueAround? (some (valueWithin? n)) = valueWithin? (n + 1) := by
  funext tree
  cases tree with
  | array items =>
    simp only [valueAround?, Option.bind_some, mapM_valueWithin?, valueWithin?, depth, value?,
      Nat.add_le_add_iff_right]
    split <;> simp
  | object fields =>
    simp only [valueAround?, Option.bind_some, mapM_field_valueWithin?]
    simp only [valueWithin?, depth, value?, Nat.add_le_add_iff_right]
    split <;> simp
  | null | bool | number | string => simp [valueAround?, valueWithin?, depth, value?]

end Tree

/-- A value is kept if it does not nest too deep and its numbers are not too large. -/
theorem interprets_value (depth : Nat) : Interprets (value depth) (Tree.valueWithin? depth) := by
  induction depth with
  | zero =>
    rw [← Tree.valueAround?_zero]
    exact interprets_valueAround none (Tree.valueWithin? 0) (by simp)
  | succ depth ih =>
    rw [← Tree.valueAround?_succ]
    apply interprets_valueAround (some (value depth)) (Tree.valueWithin? depth)
    rintro _ ⟨⟩
    exact ih

/-! ### Values that nobody wants -/

/-- A reader passes over every tree that is less deep than a bound. -/
def Skips (reader : Reader Unit) (bound : Nat) : Prop :=
  ∀ {tree : Tree} {b cs : List Char} {rest : Input}, tree.depth < bound → Blanks b →
    Spells tree cs → Ends rest → run? reader (b.map some ++ (cs.map some ++ rest)) = some ((), rest)

/-- After an item, the comma or the closing mark is taken. -/
theorem run?_skipComma_close {b : List Char} (hb : Blanks b) (close : Char)
    (hclose : close ∈ [']', '\x7d']) (missing ended : Cause) (rest : Input) :
    run? (skipComma close missing ended) (b.map some ++ some close :: rest) =
      some (false, rest) := by
  simp only [List.mem_cons, List.not_mem_nil, or_false] at hclose
  obtain rfl | rfl := hclose <;>
    simp [skipComma, run?_blanks_append hb, run?_blanks_cons (c := ']') (by decide),
      run?_blanks_cons (c := '\x7d') (by decide)]

theorem run?_skipComma_next {b : List Char} (hb : Blanks b) (close : Char)
    (missing ended : Cause) (rest : Input) :
    run? (skipComma close missing ended) (b.map some ++ some ',' :: rest) = some (true, rest) := by
  simp [skipComma, run?_blanks_append hb, run?_blanks_cons (c := ',') (by decide)]

/-- The items from one on are passed over. -/
theorem Skips.items {item : Reader Unit} {bound : Nat} (h : Skips item bound) {tree : Tree}
    {trees : List Tree} {b cs more : List Char} (hb : Blanks b) (hcs : Spells tree cs)
    (hmore : Items false trees more) (htree : tree.depth < bound)
    (htrees : Tree.itemDepth trees < bound) (turns : Nat) (hturns : more.length < turns)
    (rest : Input) :
    run? (skipItems item turns) (b.map some ++ (cs.map some ++ (more.map some ++ rest))) =
      some ((), rest) := by
  induction trees generalizing tree b cs more turns with
  | nil =>
    have hitem := h htree hb hcs (hmore.ends rest)
    obtain ⟨turns, rfl⟩ := Nat.exists_eq_add_one.mpr (Nat.zero_lt_of_lt hturns)
    cases hmore with
    | nil hb' =>
      have hclose := run?_skipComma_close hb' ']' (by decide) .noCommaInList .endInList
        rest
      simp only [List.map_append, List.map_cons, List.map_nil, List.append_assoc, List.cons_append,
        List.nil_append] at hitem ⊢
      simp [skipItems, hitem, hclose]
  | cons next trees ih =>
    have hitem := h htree hb hcs (hmore.ends rest)
    obtain ⟨turns, rfl⟩ := Nat.exists_eq_add_one.mpr (Nat.zero_lt_of_lt hturns)
    simp only [Tree.itemDepth, Nat.max_lt] at htrees
    cases hmore with
    | @cons _ _ _ lead cs' more' hlead hcs' hmore' =>
      cases hlead with
      | @next b₁ b₂ hb₁ hb₂ =>
        have hcomma := run?_skipComma_next hb₁ ']' .noCommaInList .endInList
          (b₂.map some ++ (cs'.map some ++ (more'.map some ++ rest)))
        have hrest := ih hb₂ hcs' hmore' htrees.1 htrees.2 turns (by simp at hturns; omega)
        simp only [List.map_append, List.map_cons, List.append_assoc, List.cons_append] at hitem ⊢
        simp [skipItems, hitem, hcomma, hrest]

/-- A key that nobody wants is passed over with its colon. -/
theorem run?_skipKey {b name b' : List Char} (hb : Blanks b) {key : String}
    (hname : Quoted key name) (hb' : Blanks b') (rest : Input) :
    run? skipKey (b.map some ++ (name.map some ++ (b'.map some ++ some ':' :: rest))) =
      some ((), rest) := by
  obtain ⟨inner, hinner, rfl⟩ := hname
  have hread := run?_skipString ⟨inner, hinner, rfl⟩ (b'.map some ++ some ':' :: rest)
  have hmark := run?_blanks_cons (c := '"') (by decide)
  rw [List.map_cons, List.cons_append]
  simp [skipKey, run?_blanks_append hb, hmark]
  simp at hread
  simp [hread, run?_colon hb']

/-- The fields from one on are passed over. -/
theorem Skips.members {item : Reader Unit} {bound : Nat} (h : Skips item bound) {key : String}
    {tree : Tree} {fields : List (String × Tree)} {b₀ name b b' cs more : List Char}
    (hb₀ : Blanks b₀) (hname : Quoted key name) (hb : Blanks b) (hb' : Blanks b')
    (hcs : Spells tree cs) (hmore : Members false fields more) (htree : tree.depth < bound)
    (hfields : Tree.fieldDepth fields < bound) (turns : Nat) (hturns : more.length < turns)
    (rest : Input) :
    run? (skipMembers item turns) (b₀.map some ++ (name.map some ++ (b.map some ++
      some ':' :: (b'.map some ++ (cs.map some ++ (more.map some ++ rest)))))) =
      some ((), rest) := by
  induction fields generalizing key tree b₀ name b b' cs more turns with
  | nil =>
    have hkey := run?_skipKey hb₀ hname hb
      (b'.map some ++ (cs.map some ++ (more.map some ++ rest)))
    have hitem := h htree hb' hcs (hmore.ends rest)
    obtain ⟨turns, rfl⟩ := Nat.exists_eq_add_one.mpr (Nat.zero_lt_of_lt hturns)
    cases hmore with
    | nil hb' =>
      have hclose := run?_skipComma_close hb' '\x7d' (by decide) .noCommaInObject
        .endInObject rest
      simp only [List.map_append, List.map_cons, List.map_nil, List.append_assoc, List.cons_append,
        List.nil_append] at hkey hitem ⊢
      simp [skipMembers, hkey, hitem, hclose]
  | cons next fields ih =>
    have hkey := run?_skipKey hb₀ hname hb
      (b'.map some ++ (cs.map some ++ (more.map some ++ rest)))
    have hitem := h htree hb' hcs (hmore.ends rest)
    obtain ⟨turns, rfl⟩ := Nat.exists_eq_add_one.mpr (Nat.zero_lt_of_lt hturns)
    simp only [Tree.fieldDepth, Nat.max_lt] at hfields
    cases hmore with
    | @cons _ key' tree' _ lead name' b₁ b₁' cs' more' hlead hname' hb₁ hb₁' hcs' hmore' =>
      cases hlead with
      | @next b₂ b₃ hb₂ hb₃ =>
        have hcomma := run?_skipComma_next hb₂ '\x7d' .noCommaInObject .endInObject
          (b₃.map some ++ (name'.map some ++ (b₁.map some ++ some ':' :: (b₁'.map some ++
            (cs'.map some ++ (more'.map some ++ rest))))))
        have hrest := ih hb₃ hname' hb₁ hb₁' hcs' hmore' hfields.1 hfields.2 turns
          (by simp at hturns; omega)
        simp only [List.map_append, List.map_cons, List.append_assoc, List.cons_append]
          at hkey hitem ⊢
        simp [skipMembers, hkey, hitem, hcomma, hrest]

theorem skips_skipNested (bound : Nat) : Skips (skipNested bound) bound := by
  induction bound with
  | zero =>
    intro tree b cs rest hdepth
    exact absurd hdepth (Nat.not_lt_zero _)
  | succ bound ih =>
    intro tree b cs rest hdepth hb hcs hrest
    obtain ⟨c, more, hcons, hopens⟩ := hcs.opens
    have hshown := run?_blanks_cons hopens.not_mem.1 (more.map some ++ rest)
    unfold skipNested
    rw [run?_blanks_bind_append hb, run?_bind, hcons, List.map_cons, List.cons_append, hshown,
      Option.bind_some]
    -- The reader decides on the first character, and each constructor opens with its own one.
    cases hcs with
    | null | true | false =>
      obtain ⟨rfl, rfl⟩ := List.cons.inj hcons
      simp [word]
    | @number n =>
      have hread := n.run?_skipNumeral hrest
      obtain ⟨hdigit, hc⟩ := hopens.of_number
      rw [hcons, List.map_cons, List.cons_append] at hread
      simp [hdigit, hc, hread]
    | @string text _ hquoted =>
      obtain rfl : c = '"' := hopens
      rw [hcons] at hquoted
      simp [run?_skipString hquoted]
    | @array items cs hitems =>
      obtain ⟨rfl, rfl⟩ := List.cons.inj hcons
      simp only [Tree.depth, Nat.add_lt_add_iff_right] at hdepth
      cases hitems with
      | nil hb' =>
        have hclose := run?_blanks_cons (c := ']') (by decide)
        simp [digit?_some, run?_blanks_append hb', hclose]
      | @cons _ item items lead cs more hlead hcs hmore =>
        cases hlead with
        | first hb' =>
          simp only [Tree.itemDepth, Nat.max_lt] at hdepth
          -- There are as many turns as characters left, which is enough: an item has at least one.
          have hrest := Skips.items ih blanks_nil hcs hmore hdepth.1 hdepth.2
            ((cs.map some ++ (more.map some ++ rest)).length + 1)
            (by simp only [List.length_append, List.length_map]; omega) rest
          obtain ⟨c, cs, rfl, hopens⟩ := hcs.opens
          have hitem := run?_blanks_cons hopens.not_mem.1 (cs.map some ++ (more.map some ++ rest))
          have hclose : (some c : Symbol) ≠ some ']' := by simpa using hopens.not_mem.2.1
          simpa [digit?_some, run?_blanks_append hb', hitem] using hrest
    | @object fields cs hmembers =>
      obtain ⟨rfl, rfl⟩ := List.cons.inj hcons
      simp only [Tree.depth, Nat.add_lt_add_iff_right] at hdepth
      cases hmembers with
      | nil hb' =>
        have hclose := run?_blanks_cons (c := '\x7d') (by decide)
        simp [digit?_some, run?_blanks_append hb', hclose]
      | @cons _ key tree fields lead name b₁ b₂ cs more hlead hname hb₁ hb₂ hcs hmore =>
        cases hlead with
        | first hb' =>
          simp only [Tree.fieldDepth, Nat.max_lt] at hdepth
          have hrest := Skips.members ih blanks_nil hname hb₁ hb₂ hcs hmore
            hdepth.1 hdepth.2 ((name.map some ++ (b₁.map some ++ some ':' :: (b₂.map some ++
              (cs.map some ++ (more.map some ++ rest))))).length + 1)
            (by simp only [List.length_append, List.length_map, List.length_cons]; omega) rest
          obtain ⟨inner, hinner, rfl⟩ := hname
          have hmark := run?_blanks_cons (c := '"') (by decide)
          simpa [digit?_some, run?_blanks_append hb', hmark] using hrest

/-- A value that nobody wants is passed over, however deep it nests. -/
theorem interprets_skipValue : Interprets skipValue fun _ => some () := by
  intro tree b cs rest hb hcs hrest
  have hdepth := hcs.depth_le
  have := skips_skipNested ((b.map some ++ (cs.map some ++ rest)).length + 1)
    (by simp only [List.length_append, List.length_map]; omega) hb hcs hrest
  simpa [run?, skipValue] using this

/-! ### Shapes -/

@[simp] theorem run?_wanted (form : String) (input : Input) :
    run? (wanted form : Reader α) input = none := by
  rw [wanted, run?_bind]
  cases run? scalar input <;> rfl

namespace Tree

/-- The text of a string. -/
def text? : Tree → Option String
  | string text => some text
  | _ => none

/-- The truth value of a word. -/
def flag? : Tree → Option Bool
  | bool b => some b
  | _ => none

/-- Nothing for `null`, a meaning for anything else. -/
def optional? (meaning : Tree → Option α) : Tree → Option (Option α)
  | null => some none
  | tree => (meaning tree).map some

/-- Nothing but `null` has this meaning. -/
def unit? : Tree → Option Unit
  | null => some ()
  | _ => none

/-- What the key of an object with one field stands for, if the field is `null`. -/
def entry? (choice : Choice α) : List (String × Tree) → Option α
  | [(word, tree)] => (choice.find? word).bind fun x => tree.unit?.map fun _ => x
  | _ => none

/-- What a string or an object stands for; the object must be allowed to open. -/
def choice? (choice : Choice α) (depth : Nat) : Tree → Option α
  | string word => choice.find? word
  | object fields => if depth = 0 then none else entry? choice fields
  | _ => none

end Tree

/-- Where a string is wanted, the rest of a reader sees what stands between the marks. -/
theorem interprets_quoted (form : String) (inside : Reader α) (meaning : String → Option α)
    (h : ∀ {text : String} {cs : List Char} (rest : Input), Quoted text ('"' :: cs) →
      run? inside (cs.map some ++ rest) = (meaning text).map (·, rest)) :
    Interprets (do
        match ← blanks with
        | some (some '"') =>
          advance
          inside
        | _ => wanted form)
      fun tree => tree.text?.bind meaning := by
  intro tree b cs rest hb hcs hrest
  obtain ⟨c, more, hcons, hopens⟩ := hcs.opens
  have hshown := run?_blanks_cons hopens.not_mem.1 (more.map some ++ rest)
  rw [run?_blanks_bind_append hb, run?_bind, hcons, List.map_cons, List.cons_append, hshown,
    Option.bind_some]
  cases hcs with
  | null | true | false | array | object =>
    obtain ⟨rfl, rfl⟩ := List.cons.inj hcons
    simp [Tree.text?]
  | number =>
    obtain ⟨-, -, -, -, hquote, -⟩ := hopens.of_number
    have hmark : some (some c) ≠ some (some '"') := by simpa using hquote
    simp [Tree.text?]
  | string hquoted =>
    obtain rfl : c = '"' := hopens
    rw [hcons] at hquoted
    simp [h rest hquoted, Tree.text?]

theorem interprets_text (depth : Nat) : Interprets (Shape.text.read depth) Tree.text? :=
  (interprets_quoted "a string" string some fun rest h => run?_string h rest).congr
    fun _ => Option.bind_fun_some _

/-- The word of a choice must be a string. -/
theorem interprets_identifier : Interprets Choice.identifier Tree.text? :=
  (interprets_quoted "variant identifier" string some fun rest h => run?_string h rest).congr
    fun _ => Option.bind_fun_some _

theorem interprets_uuid (depth : Nat) :
    Interprets (Shape.uuid.read depth)
      fun tree => tree.text?.bind fun text => (Shape.parseUuid text).toOption :=
  interprets_quoted "a formatted UUID string" (do liftM (Shape.parseUuid (← string))) _
    fun rest h => by simp [run?_string h rest]

theorem interprets_flag (depth : Nat) : Interprets (Shape.flag.read depth) Tree.flag? := by
  intro tree b cs rest hb hcs hrest
  obtain ⟨c, more, hcons, hopens⟩ := hcs.opens
  have hshown := run?_blanks_cons hopens.not_mem.1 (more.map some ++ rest)
  unfold Shape.flag
  rw [run?_blanks_bind_append hb, run?_bind, hcons, List.map_cons, List.cons_append, hshown,
    Option.bind_some]
  cases hcs with
  | null | true | false | array | object =>
    obtain ⟨rfl, rfl⟩ := List.cons.inj hcons
    simp [Tree.flag?, word]
  | number =>
    obtain ⟨-, -, htrue, hfalse, -⟩ := hopens.of_number
    have htrue' : some (some c) ≠ some (some 't') := by simpa using htrue
    have hfalse' : some (some c) ≠ some (some 'f') := by simpa using hfalse
    simp [Tree.flag?]
  | string hquoted =>
    obtain rfl : c = '"' := hopens
    simp [Tree.flag?]

/-- Any value is kept in canonical form. -/
theorem interprets_any (depth : Nat) :
    Interprets (Shape.any.read depth) fun tree => (tree.valueWithin? depth).map Value.canonical :=
  (interprets_value depth).map Value.canonical

theorem Tree.optional?_of_ne {meaning : Tree → Option α} {tree : Tree} (h : tree ≠ .null) :
    tree.optional? meaning = (meaning tree).map some := by
  cases tree <;> first | rfl | exact absurd rfl h

/-- Only `null` begins like it. -/
theorem Tree.Opens.ne_of_ne_null {tree : Tree} {c : Char} (h : tree.Opens c) (hne : tree ≠ .null) :
    c ≠ 'n' := by
  rcases tree with _ | (_ | _) | _ | _ | _ | _
  case null => exact absurd rfl hne
  case number => exact h.of_number.2.1
  all_goals
    obtain rfl := h
    decide

theorem interprets_optional {shape : Shape α} {depth : Nat} {meaning : Tree → Option α}
    (h : Interprets (shape.read depth) meaning) :
    Interprets ((Shape.optional shape).read depth) (Tree.optional? meaning) := by
  intro tree b cs rest hb hcs hrest
  have hread := h blanks_nil hcs hrest
  obtain ⟨c, more, rfl, hopens⟩ := hcs.opens
  have hshown := run?_blanks_cons hopens.not_mem.1 (more.map some ++ rest)
  simp only [List.map_nil, List.nil_append, List.map_cons, List.cons_append] at hread ⊢
  unfold Shape.optional
  rw [run?_blanks_bind_append hb, run?_bind, hshown, Option.bind_some]
  by_cases htree : tree = .null
  · subst htree
    cases hcs
    simp [Tree.optional?, word]
  · have hc : some (some c) ≠ some (some 'n') := by simpa using hopens.ne_of_ne_null htree
    simp [Tree.optional?_of_ne htree, hread, Function.comp_def]

theorem Choice.toOption_find (choice : Choice α) (word : String) :
    (choice.find word).toOption = choice.find? word := by
  unfold Choice.find
  cases choice.find? word <;> rfl

/-- The value that belongs to a word must be `null`. -/
theorem interprets_unit : Interprets Choice.unit Tree.unit? := by
  intro tree b cs rest hb hcs hrest
  obtain ⟨c, more, rfl, hopens⟩ := hcs.opens
  have hshown := run?_blanks_cons hopens.not_mem.1 (more.map some ++ rest)
  unfold Choice.unit
  rw [run?_blanks_bind_append hb, run?_bind, List.map_cons, List.cons_append, hshown,
    Option.bind_some]
  by_cases htree : tree = .null
  · subst htree
    cases hcs
    simp [word, Tree.unit?]
  · have hc : some (some c) ≠ some (some 'n') := by simpa using hopens.ne_of_ne_null htree
    have hnone : tree.unit? = none := by
      cases tree <;> first | rfl | exact absurd rfl htree
    simp [hnone]

/-- What is read of a choice behind an opening brace. -/
def Choice.inside (choice : Choice α) : Reader α := do
  let name ← Choice.identifier
  let x ← liftM (choice.find name)
  colon
  within (.choice name) Choice.unit
  match ← blanks with
  | none => fail .endInObject
  | some (some '\x7d') =>
    advance
    return x
  | some _ => fail .noValue

theorem Choice.run?_inside (choice : Choice α) {fields : List (String × Tree)} {cs : List Char}
    (h : Members true fields cs) (rest : Input) :
    run? choice.inside (cs.map some ++ rest) = (Tree.entry? choice fields).map (·, rest) := by
  have hclose := run?_blanks_cons (c := '\x7d') (by decide)
  have hcomma := run?_blanks_cons (c := ',') (by decide)
  cases h with
  | @nil _ b hb =>
    have hnone : run? Choice.identifier (b.map some ++ some '\x7d' :: rest) = none := by
      simp [Choice.identifier, run?_blanks_append hb, hclose]
    simp [Choice.inside, hnone, Tree.entry?]
  | @cons _ key tree fields lead name b b' cs more hlead hname hb hb' hcs hmore =>
    cases hlead with
    | first hlead =>
      have hkey := interprets_identifier hlead (.string hname)
        (hb.ends (c := ':') (by decide) (b'.map some ++ (cs.map some ++ (more.map some ++ rest))))
      have hunit := interprets_unit.afterColon hb hb' hcs (hmore.ends rest)
      rw [run?_seqRight, run?_colon hb, Option.bind_some] at hunit
      simp only [List.map_append, List.map_cons, List.append_assoc, List.cons_append] at hkey ⊢
      rw [Choice.inside, run?_bind, hkey]
      simp only [Tree.text?, Option.map_some, Option.bind_some, run?_bind, run?_liftM,
        choice.toOption_find, run?_within]
      cases hfind : choice.find? key with
      | none => cases fields <;> simp [Tree.entry?, hfind]
      | some x =>
        simp only [Option.map_some, Option.bind_some, run?_colon hb, hunit]
        cases hvalue : tree.unit? with
        | none => cases fields <;> simp [Tree.entry?, hvalue]
        | some _ =>
          cases hmore with
          | nil hb'' => simp [run?_blanks_append hb'', hclose, Tree.entry?, hfind, hvalue]
          | cons hnext _ _ _ _ _ =>
            cases hnext with
            | next hb₁ hb₂ => simp [run?_blanks_append hb₁, hcomma, Tree.entry?]

/-- A choice is read from a string, or from an object that maps it to `null`. -/
theorem interprets_choice (choice : Choice α) (depth : Nat) :
    Interprets (choice.read depth) (Tree.choice? choice depth) := by
  intro tree b cs rest hb hcs hrest
  obtain ⟨c, more, hcons, hopens⟩ := hcs.opens
  have hshown := run?_blanks_cons hopens.not_mem.1 (more.map some ++ rest)
  unfold Choice.read
  rw [run?_blanks_bind_append hb, run?_bind, hcons, List.map_cons, List.cons_append, hshown,
    Option.bind_some]
  cases hcs with
  | null | true | false | array =>
    obtain ⟨rfl, rfl⟩ := List.cons.inj hcons
    simp [Tree.choice?]
  | number =>
    obtain ⟨-, -, -, -, hquote, -, hbrace⟩ := hopens.of_number
    have hquote' : (some c : Symbol) ≠ some '"' := by simpa using hquote
    have hbrace' : (some c : Symbol) ≠ some '\x7b' := by simpa using hbrace
    simp [Tree.choice?]
  | @string text _ hquoted =>
    obtain rfl : c = '"' := hopens
    rw [hcons] at hquoted
    simp [run?_string hquoted, Tree.choice?, choice.toOption_find]
  | @object fields cs hmembers =>
    obtain ⟨rfl, rfl⟩ := List.cons.inj hcons
    have hinside := choice.run?_inside hmembers rest
    by_cases hdepth : depth = 0
    · simp [hdepth, Tree.choice?]
    · change run? (if depth = 0 then fail .tooDeep else advance >>= fun _ => choice.inside) _ = _
      simpa [hdepth, Tree.choice?] using hinside

end RoomRelay.Json
