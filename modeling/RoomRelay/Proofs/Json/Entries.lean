import RoomRelay.Proofs.Json.Fields
import RoomRelay.Proofs.Json.Passing

/-!
# What a record was read from

Where a record has been read, there stood an object or an array, and what the record was built from
are the values of its fields there. A field that a record does not know is only looked at for its
form, so that nothing is said of its value. No field that the record knows stands there twice.

## Main definitions

* `Entries`, `IsObject` — the fields of an object in an input, with the values that are kept
* `IsArray` — an array in an input, with the values that are kept
* `Place` — the place in a draft to which a key belongs

## Main results

* `Record.Takes.of_run?_read` — what a record was read from is an object or an array
* `Place.of_collect` — a key that is known is given once at most, and its value is in its place
-/

namespace RoomRelay.Json

variable {α β δ τ : Type}

/-! ### The fields of an object -/

/-- The fields of an object in an input from one on, up to the closing brace, which stays: their
keys, with the values that are kept of them. Nothing is kept of a value that nobody wants. -/
inductive Entries (depth : Nat) :
    (first : Bool) → List (String × Option Value) → (input rest : Input) → Prop
  | nil {first : Bool} {b : List Char} {rest : Input} :
      Blanks b → Entries depth first [] (b.map some ++ some '\x7d' :: rest) (some '\x7d' :: rest)
  | kept {first : Bool} {key : String} {v : Value} {tree : Tree}
      {entries : List (String × Option Value)} {lead name b b' cs : List Char}
      {more rest : Input} :
      Lead first lead → Quoted key name → Blanks b → Blanks b' → Spells tree cs →
      tree.valueWithin? depth = some v → Entries depth false entries more rest →
      Entries depth first ((key, some v) :: entries)
        (lead.map some ++ (name.map some ++ (b.map some ++ some ':' ::
          (b'.map some ++ (cs.map some ++ more))))) rest
  | passed {first : Bool} {key : String} {entries : List (String × Option Value)}
      {lead name b : List Char} {body more rest : Input} :
      Lead first lead → Quoted key name → Blanks b → PassedOver body more →
      Entries depth false entries more rest →
      Entries depth first ((key, none) :: entries)
        (lead.map some ++ (name.map some ++ (b.map some ++ some ':' :: body))) rest

/-- An object with these fields is at the front of an input, behind blanks. -/
def IsObject (depth : Nat) (entries : List (String × Option Value)) (input rest : Input) : Prop :=
  ∃ b inside, Blanks b ∧ input = b.map some ++ some '\x7b' :: inside ∧
    Entries depth true entries inside (some '\x7d' :: rest)

/-- An array with these items is at the front of an input, behind blanks, and all of them are
kept. -/
def IsArray (depth : Nat) (items : List Value) (input rest : Input) : Prop :=
  ∃ b trees cs, Blanks b ∧ Spells (.array trees) cs ∧
    trees.mapM (Tree.valueWithin? depth) = some items ∧ input = b.map some ++ (cs.map some ++ rest)

/-- The same slot for entries of which a value may have been kept. -/
def Slot.kept (slot : Slot δ Value) : Slot δ (Option Value) := slot.through id

/-- A bracket is no blank. -/
theorem Blanks.eq_nil_of_bracket {b : List Char} (hb : Blanks b) (c : Char) (cs : List Char)
    {more rest : Input} (heq : some ']' :: more = b.map some ++ (some c :: cs.map some ++ rest)) :
    b = [] ∧ c = ']' := by
  rcases b with _ | ⟨c', b⟩
  · obtain ⟨hc, -⟩ := List.cons.inj heq
    exact ⟨rfl, (Option.some.inj hc).symm⟩
  · obtain ⟨⟨⟩, -⟩ := List.cons.inj heq
    exact absurd (hb ']' List.mem_cons_self) (by decide)

/-- Behind the end of an array there are no items. -/
theorem Items.eq_nil_of_bracket {trees : List Tree} {cs : List Char} {more rest : Input}
    (h : Items false trees cs) (heq : some ']' :: more = cs.map some ++ rest) :
    trees = [] ∧ cs = [']'] := by
  cases h with
  | nil hb =>
    obtain ⟨rfl, -⟩ := hb.eq_nil_of_bracket ']' [] (by simpa using heq)
    exact ⟨rfl, rfl⟩
  | @cons _ item items lead body tail hlead _ _ =>
    cases hlead with
    | @next b b' hb _ =>
      obtain ⟨-, hcomma⟩ := hb.eq_nil_of_bracket ',' (b' ++ (body ++ tail)) (by simpa using heq)
      exact absurd hcomma (by decide)

/-- What a field has been read from is a value that its slot takes. -/
theorem Field.Takes.of_run?_read {field : Field δ} {depth : Nat} {slot : Slot δ Value}
    (h : field.Takes depth slot) {draft draft' : δ} {input rest : Input}
    (hrun : run? (field.read depth draft) input = some (draft', rest)) :
    ∃ b tree cs v, Blanks b ∧ Spells tree cs ∧ tree.valueWithin? depth = some v ∧
      slot.put v draft = some draft' ∧ input = b.map some ++ (cs.map some ++ rest) := by
  have hdefers : run? (field.read depth draft) input = _ := h.read draft input
  rw [hdefers] at hrun
  obtain ⟨⟨v, rest⟩, hvalue, hrun⟩ := Option.bind_eq_some_iff.mp hrun
  obtain ⟨draft', hput, ⟨⟩⟩ := Option.map_eq_some_iff.mp hrun
  obtain ⟨b, tree, cs, hb, hcs, hv, hinput⟩ := recognizes_value depth hvalue
  exact ⟨b, tree, cs, v, hb, hcs, hv, hput, hinput⟩

namespace Record

variable {r : Record δ α} {depth : Nat} {slots : List (Slot δ Value)} {input rest : Input}

/-- A key names a field and its slot, or neither. -/
theorem Takes.find? (h : r.Takes depth slots) (key : String) :
    (r.field? key = none ∧ slots.find? (·.isNamed key) = none) ∨
      ∃ field slot, r.field? key = some field ∧ slots.find? (·.isNamed key) = some slot ∧
        field.Takes depth slot :=
  find?_isNamed (fun _ _ hfield => hfield.isNamed key) h

/-- What has been read into a draft are the fields of an object, up to the closing brace. -/
theorem Takes.of_run?_readMembers (h : r.Takes depth slots) {turns : Nat} {first : Bool}
    {draft draft' : δ}
    (hrun : run? (r.readMembers depth turns first draft) input = some (draft', rest)) :
    ∃ entries more, rest = some '\x7d' :: more ∧ Entries depth first entries input rest ∧
      collect (slots.map Slot.kept) entries draft = some draft' := by
  induction turns generalizing first draft input with
  | zero => cases hrun
  | succ turns ih =>
    simp only [readMembers, run?_bind, run?_within, Option.bind_eq_some_iff] at hrun
    obtain ⟨⟨_ | key, input'⟩, hnext, hrun⟩ := hrun
    · obtain ⟨b, more, hb, rfl, rfl⟩ := brace_of_run?_nextKey hnext
      obtain ⟨rfl, rfl⟩ := Prod.mk.inj (Option.some.inj hrun)
      exact ⟨[], more, rfl, .nil hb, rfl⟩
    · obtain ⟨lead, name, hlead, hname, rfl⟩ := quoted_of_run?_nextKey hnext
      simp only [run?_bind, Option.bind_eq_some_iff] at hrun
      obtain ⟨⟨draft₁, input''⟩, hmember, hmore⟩ := hrun
      obtain ⟨entries, more, rfl, hentries, hcollect⟩ := ih hmore
      have hfind : (slots.map Slot.kept).find? (·.isNamed key) =
          (slots.find? (·.isNamed key)).map Slot.kept := find?_through _ _ _
      rw [readMember] at hmember
      obtain ⟨hfield, hslot⟩ | ⟨field, slot, hfield, hslot, htakes⟩ := h.find? key
      · -- The record does not know the key.
        simp only [hfield, run?_bind, run?_within, run?_seqRight, run?_pure,
          Option.bind_eq_some_iff] at hmember
        obtain ⟨_, ⟨⟨_, input₁⟩, hcolon, hskip⟩, ⟨⟩⟩ := hmember
        obtain ⟨b, hb, rfl⟩ := colon_of_run?_colon hcolon
        refine ⟨(key, none) :: entries, more, rfl,
          .passed hlead hname hb (passedOver_of_run?_skipValue hskip) hentries, ?_⟩
        rw [collect, hfind, hslot]
        exact hcollect
      · simp only [hfield, run?_ite, run?_fail, run?_within] at hmember
        split_ifs at hmember with hgiven
        rw [run?_seqRight] at hmember
        obtain ⟨⟨_, input₁⟩, hcolon, hread⟩ := Option.bind_eq_some_iff.mp hmember
        obtain ⟨b, hb, rfl⟩ := colon_of_run?_colon hcolon
        obtain ⟨b', tree, cs, v, hb', hcs, hv, hput, rfl⟩ := htakes.of_run?_read hread
        refine ⟨(key, some v) :: entries, more, rfl,
          .kept hlead hname hb hb' hcs hv hentries, ?_⟩
        rw [collect, hfind, hslot]
        simp [Slot.kept, Slot.through, ← htakes.given, hgiven, hput, hcollect]

/-- What has been read into a draft are the items of an array, at most one for each field, if the
array ends behind them. -/
theorem Takes.of_run?_readItems {fields : List (Field δ)}
    (h : List.Forall₂ (fun field slot => field.Takes depth slot) fields slots) {index : Nat}
    {draft draft' : δ} {b : List Char} (hb : Blanks b)
    (hrun : run? (r.readItems depth index fields draft) input =
      some (draft', b.map some ++ some ']' :: rest)) :
    ∃ trees items cs, Items (index == 0) trees cs ∧ input = cs.map some ++ rest ∧
      trees.mapM (Tree.valueWithin? depth) = some items ∧
      fill ((fields.map (·.required)).zip slots) items draft = some draft' := by
  induction h generalizing index draft input with
  | nil =>
    obtain ⟨rfl, rfl⟩ := Prod.mk.inj (Option.some.inj hrun)
    exact ⟨[], [], b ++ [']'], .nil hb, by simp, rfl, rfl⟩
  | @cons field slot fields slots hfield _ ih =>
    simp only [readItems, run?_bind, Option.bind_eq_some_iff] at hrun
    obtain ⟨⟨_ | _, input'⟩, hnext, hrun⟩ := hrun
    · -- The array has ended, and none of the fields that are left must be there.
      obtain ⟨b', more, hb', rfl, rfl⟩ := bracket_of_run?_nextItem hnext
      simp only [Bool.false_eq_true, if_false, run?_ite, run?_fail] at hrun
      split_ifs at hrun with hrequired
      obtain ⟨trees, items, cs, hcs, hinput, hitems, hfill⟩ := ih hrun
      obtain ⟨rfl, rfl⟩ := hcs.eq_nil_of_bracket hinput
      obtain rfl : items = [] := by simpa using hitems.symm
      obtain rfl : more = rest := by simpa using hinput
      refine ⟨[], [], b' ++ [']'], .nil hb', by simp, rfl, ?_⟩
      simpa [fill, hrequired] using hfill
    · obtain ⟨lead, hlead, rfl⟩ := lead_of_run?_nextItem hnext
      simp only [if_true, run?_bind, run?_within, Option.bind_eq_some_iff] at hrun
      obtain ⟨⟨draft₁, input₁⟩, hread, hmore⟩ := hrun
      obtain ⟨b', tree, cs, v, hb', hcs, hv, hput, rfl⟩ := hfield.of_run?_read hread
      obtain ⟨trees, items, cs', hcs', rfl, hitems, hfill⟩ := ih hmore
      refine ⟨tree :: trees, v :: items, (lead ++ b') ++ (cs ++ cs'),
        .cons (hlead.append hb') hcs hcs', by simp, by simp [hv, hitems], ?_⟩
      simp [fill, hput, hfill]

/-- What a record was read from is an object with its fields, or an array with its items. -/
theorem Takes.of_run?_read (h : r.Takes depth slots) {x : α}
    (hrun : run? (r.read (depth + 1)) input = some (x, rest)) :
    ∃ draft, (r.build draft).toOption = some x ∧
      ((∃ entries, IsObject depth entries input rest ∧
          collect (slots.map Slot.kept) entries r.blank = some draft) ∨
        ∃ items, IsArray depth items input rest ∧
          fill ((r.fields.map (·.required)).zip slots) items r.blank = some draft) := by
  obtain ⟨b, shown, hb, rfl, hshown⟩ := exists_blanks input
  unfold Record.read at hrun
  rw [run?_bind, hshown, Option.bind_some] at hrun
  split at hrun
  · next hbrace =>
    obtain ⟨inside, rfl⟩ := List.head?_eq_some_iff.mp hbrace
    simp only [run?_bind, run?_advance, run?_get, run?_liftM, run?_pure, List.drop_succ_cons,
      List.drop_zero, Option.bind_some, Option.bind_eq_some_iff] at hrun
    obtain ⟨⟨draft, input'⟩, hmembers, _, hbuild, ⟨_, _⟩, hclose, ⟨⟩⟩ := hrun
    obtain ⟨entries, more, rfl, hentries, hcollect⟩ := h.of_run?_readMembers hmembers
    obtain ⟨x, hx, ⟨⟩⟩ := Option.map_eq_some_iff.mp hbuild
    obtain ⟨-, rfl⟩ := Prod.mk.inj (Option.some.inj
      (hclose.symm.trans (run?_closeObject blanks_nil more)))
    exact ⟨draft, hx, .inl ⟨entries, ⟨b, inside, hb, rfl, hentries⟩, hcollect⟩⟩
  · next hbracket =>
    obtain ⟨inside, rfl⟩ := List.head?_eq_some_iff.mp hbracket
    simp only [run?_bind, run?_advance, run?_liftM, run?_pure, List.drop_succ_cons,
      List.drop_zero, Option.bind_some, Option.bind_eq_some_iff] at hrun
    obtain ⟨⟨draft, input'⟩, hitems, _, hbuild, ⟨_, _⟩, hclose, ⟨⟩⟩ := hrun
    obtain ⟨x, hx, ⟨⟩⟩ := Option.map_eq_some_iff.mp hbuild
    obtain ⟨b', hb', rfl⟩ := bracket_of_run?_closeList hclose
    obtain ⟨trees, items, cs, hcs, rfl, hkept, hfill⟩ := of_run?_readItems h hb' hitems
    exact ⟨draft, hx, .inr ⟨items, ⟨b, trees, '[' :: cs, hb, .array hcs, hkept, by simp⟩, hfill⟩⟩
  · -- Where something else stands, no record is read.
    simp [wanted] at hrun

end Record

/-! ### Keys and places -/

/-- What is put into a slot does not change what `get` finds in a draft. -/
def Slot.Spares (slot : Slot δ τ) (get : δ → Option β) : Prop :=
  ∀ x draft draft', slot.put x draft = some draft' → get draft' = get draft

theorem Slot.of_spares {γ : Type} {keys : List String} {meaning : τ → Option γ}
    {get' : δ → Option γ} {set : γ → δ → δ} {get : δ → Option β}
    (h : ∀ y draft, get (set y draft) = get draft) : (of keys meaning get' set).Spares get := by
  intro x draft draft' hput
  obtain ⟨y, -, rfl⟩ := Option.map_eq_some_iff.mp hput
  exact h y draft

theorem Slot.eq_of_isNamed {key key' : String} {meaning : τ → Option β} {get : δ → Option β}
    {set : β → δ → δ} (h : (of [key] meaning get set).isNamed key' = true) : key' = key := by
  simpa [of] using h

/-- A key belongs to a place in a draft: its entries are put there by their meaning, and no other
entry changes the place. -/
structure Place (slots : List (Slot δ τ)) (key : String) (meaning : τ → Option β)
    (get : δ → Option β) : Prop where
  own : ∃ slot, slots.find? (·.isNamed key) = some slot ∧
    (∀ draft, slot.given draft = (get draft).isSome) ∧
    ∀ x draft draft', slot.put x draft = some draft' → ∃ y, meaning x = some y ∧ get draft' = some y
  other : ∀ key' slot, key' ≠ key → slots.find? (·.isNamed key') = some slot → slot.Spares get

namespace Place

variable {slots : List (Slot δ τ)} {key : String} {meaning : τ → Option β} {get : δ → Option β}

/-- A key belongs to the place of its slot, if the slots of other keys spare the place. -/
theorem of_slot (set : β → δ → δ)
    (hfind : slots.find? (·.isNamed key) = some (.of [key] meaning get set))
    (hget : ∀ y draft, get (set y draft) = some y)
    (hspares : ∀ slot ∈ slots, slot.Spares get ∨ ∀ key', slot.isNamed key' = true → key' = key) :
    Place slots key meaning get where
  own := by
    refine ⟨_, hfind, fun _ => rfl, fun x draft draft' hput => ?_⟩
    obtain ⟨y, hy, rfl⟩ := Option.map_eq_some_iff.mp hput
    exact ⟨y, hy, hget y draft⟩
  other key' slot hne hslot := by
    have hnamed : slot.isNamed key' = true := by simpa using List.find?_some hslot
    obtain hslot | hkey := hspares slot (List.mem_of_find?_eq_some hslot)
    · exact hslot
    · exact absurd (hkey key' hnamed) hne

/-- The same for other entries, with the meaning of what they stand for. -/
theorem through {σ : Type} (h : Place slots key meaning get) (inner? : σ → Option τ) :
    Place (slots.map (Slot.through inner?)) key (fun x => (inner? x).bind meaning) get where
  own := by
    obtain ⟨slot, hfind, hgiven, hput⟩ := h.own
    refine ⟨slot.through inner?, by rw [find?_through, hfind]; rfl, hgiven, ?_⟩
    intro x draft draft' hdraft'
    obtain ⟨v, hv, hslot⟩ := Option.bind_eq_some_iff.mp hdraft'
    obtain ⟨y, hy, hget⟩ := hput v draft draft' hslot
    exact ⟨y, by simp [hv, hy], hget⟩
  other key' slot hne hslot := by
    rw [find?_through] at hslot
    obtain ⟨slot, hfind, rfl⟩ := Option.map_eq_some_iff.mp hslot
    intro x draft draft' hdraft'
    obtain ⟨v, -, hput⟩ := Option.bind_eq_some_iff.mp hdraft'
    exact h.other key' slot hne hfind v draft draft' hput

variable {entries : List (String × τ)} {draft draft' : δ}

/-- An entry with another key leaves the place as it is. -/
theorem of_collect_cons (h : Place slots key meaning get) {key' : String} (hne : key' ≠ key) {x : τ}
    (hcollect : collect slots ((key', x) :: entries) draft = some draft') :
    ∃ draft₁, get draft₁ = get draft ∧ collect slots entries draft₁ = some draft' := by
  rw [collect] at hcollect
  cases hfind : slots.find? (·.isNamed key') with
  | none =>
    simp only [hfind] at hcollect
    exact ⟨draft, rfl, hcollect⟩
  | some slot =>
    simp only [hfind] at hcollect
    split_ifs at hcollect
    obtain ⟨draft₁, hput, hmore⟩ := Option.bind_eq_some_iff.mp hcollect
    exact ⟨draft₁, h.other key' slot hne hfind x draft draft₁ hput, hmore⟩

/-- Where the place is taken, the key is not given any more. -/
theorem of_collect_given (h : Place slots key meaning get) (hgiven : (get draft).isSome = true)
    (hcollect : collect slots entries draft = some draft') :
    entries.filter (·.1 = key) = [] ∧ get draft' = get draft := by
  induction entries generalizing draft with
  | nil =>
    obtain rfl := Option.some.inj hcollect
    exact ⟨rfl, rfl⟩
  | cons entry entries ih =>
    obtain ⟨key', x⟩ := entry
    by_cases hkey : key' = key
    · -- The entry would be put into a slot that is filled.
      subst hkey
      obtain ⟨slot, hfind, hslot, -⟩ := h.own
      simp [collect, hfind, hslot, hgiven] at hcollect
    · obtain ⟨draft₁, hget, hmore⟩ := h.of_collect_cons hkey hcollect
      obtain ⟨hentries, hdraft⟩ := ih (hget ▸ hgiven) hmore
      rw [List.filter_cons_of_neg (by simpa using hkey)]
      exact ⟨hentries, hdraft.trans hget⟩

/-- Where the place is free, the key is not given, or given once; then its meaning is in its
place. -/
theorem of_collect (h : Place slots key meaning get) (hfree : get draft = none)
    (hcollect : collect slots entries draft = some draft') :
    (entries.filter (·.1 = key) = [] ∧ get draft' = none) ∨
      ∃ x y, entries.filter (·.1 = key) = [(key, x)] ∧ meaning x = some y ∧
        get draft' = some y := by
  induction entries generalizing draft with
  | nil =>
    obtain rfl := Option.some.inj hcollect
    exact .inl ⟨rfl, hfree⟩
  | cons entry entries ih =>
    obtain ⟨key', x⟩ := entry
    by_cases hkey : key' = key
    · -- The entry takes the place, so that no later one may have its key.
      subst hkey
      obtain ⟨slot, hfind, -, hput⟩ := h.own
      simp only [collect, hfind] at hcollect
      split_ifs at hcollect
      obtain ⟨draft₁, hdraft₁, hmore⟩ := Option.bind_eq_some_iff.mp hcollect
      obtain ⟨y, hy, hget⟩ := hput x draft draft₁ hdraft₁
      obtain ⟨hentries, hdraft⟩ := h.of_collect_given (by rw [hget]; rfl) hmore
      refine .inr ⟨x, y, ?_, hy, hdraft.trans hget⟩
      rw [List.filter_cons_of_pos (by simp), hentries]
    · obtain ⟨draft₁, hget, hmore⟩ := h.of_collect_cons hkey hcollect
      rw [List.filter_cons_of_neg (by simpa using hkey)]
      exact ih (hget.trans hfree) hmore

/-- An entry with the key is the only one, and its meaning is in its place. -/
theorem of_collect_mem (h : Place slots key meaning get) (hfree : get draft = none)
    (hcollect : collect slots entries draft = some draft') {x : τ} (hx : (key, x) ∈ entries) :
    ∃ y, meaning x = some y ∧ get draft' = some y := by
  have hmem : (key, x) ∈ entries.filter (·.1 = key) := List.mem_filter.mpr ⟨hx, by simp⟩
  obtain ⟨hnil, -⟩ | ⟨x', y, hone, hy, hget⟩ := h.of_collect hfree hcollect
  · rw [hnil] at hmem
    cases hmem
  · obtain ⟨-, rfl⟩ := Prod.mk.inj (List.mem_singleton.mp (hone ▸ hmem))
    exact ⟨y, hy, hget⟩

/-- The same where a value may have been kept of each entry: one was kept of the entry with the
key. -/
theorem of_collect_kept {slots : List (Slot δ Value)} {meaning : Value → Option β}
    (h : Place slots key meaning get) {entries : List (String × Option Value)}
    (hfree : get draft = none)
    (hcollect : collect (slots.map Slot.kept) entries draft = some draft') :
    (entries.filter (·.1 = key) = [] ∧ get draft' = none) ∨
      ∃ v y, entries.filter (·.1 = key) = [(key, some v)] ∧ meaning v = some y ∧
        get draft' = some y := by
  obtain hnone | ⟨v?, y, hentries, hy, hget⟩ := (h.through id).of_collect hfree hcollect
  · exact .inl hnone
  · obtain ⟨v, rfl, hv⟩ := Option.bind_eq_some_iff.mp hy
    exact .inr ⟨v, y, hentries, hv, hget⟩

/-- What is in its place has been kept of the only entry with the key. -/
theorem kept_of_some {slots : List (Slot δ Value)} {meaning : Value → Option β}
    (h : Place slots key meaning get) {entries : List (String × Option Value)}
    (hfree : get draft = none)
    (hcollect : collect (slots.map Slot.kept) entries draft = some draft')
    {y : β} (hy : get draft' = some y) :
    ∃ v, entries.filter (·.1 = key) = [(key, some v)] ∧ meaning v = some y := by
  obtain ⟨-, hnone⟩ | ⟨v, y', hentries, hv, hget⟩ := h.of_collect_kept hfree hcollect
  · rw [hnone] at hy
    cases hy
  · rw [hget] at hy
    exact ⟨v, hentries, hv.trans hy⟩

end Place

/-- Items that are put into other slots spare a place as well. -/
theorem fill_spares {slots : List (Bool × Slot δ τ)} (get : δ → Option β)
    (hslots : ∀ slot ∈ slots, slot.2.Spares get) {items : List τ} {draft draft' : δ}
    (h : fill slots items draft = some draft') : get draft' = get draft := by
  induction slots generalizing items draft with
  | nil =>
    cases items with
    | nil =>
      obtain rfl := Option.some.inj h
      rfl
    | cons => cases h
  | cons slot slots ih =>
    rw [List.forall_mem_cons] at hslots
    cases items with
    | nil =>
      rw [fill] at h
      split_ifs at h
      exact ih hslots.2 h
    | cons x items =>
      rw [fill] at h
      obtain ⟨draft₁, hput, hmore⟩ := Option.bind_eq_some_iff.mp h
      exact (ih hslots.2 hmore).trans (hslots.1 x draft draft₁ hput)

end RoomRelay.Json
