import RoomRelay.Proofs.Json.Deferral
import RoomRelay.Proofs.Json.Records

/-!
# Fields of kept values

Most readers of fields are deferrable on every input: what is read is decoded from the value that
would be kept. For a record with such fields it is therefore enough to say what each field makes of
a value. The slots that say so are those of the reader as well, with the values of the trees for
entries.

## Main definitions

* `Field.Takes`, `Record.Takes` — slots that say what fields make of kept values
* `Slot.through`, `Slot.written` — the same slot for other entries, such as written ones

## Main results

* `Shape.deferrable_integer`, `Shape.deferrable_checked`, `Shape.deferrable_discarded`,
  `Shape.deferrable_listOf` — more shapes of fields
* `Record.Takes.interprets_read` — records read from any text
-/

namespace RoomRelay.Json

variable {α β δ : Type}

theorem interprets_of_deferrable {reader : Reader α} {meaning : Value → Option α} {depth : Nat}
    (h : ∀ input, Deferrable reader meaning depth input) :
    Interprets reader fun tree => (tree.valueWithin? depth).bind meaning := by
  intro tree b cs rest hb hcs hrest
  rw [h, interprets_value depth hb hcs hrest]
  change _ = ((tree.valueWithin? depth).bind meaning).map _
  cases tree.valueWithin? depth <;> rfl

/-! ### Integers -/

section Shown

variable {depth : Nat} {input shown : Input} {c : Char}

/-- A character that begins a numeral begins nothing else. -/
theorem ne_of_numeral (hc : c = '-' ∨ (digit? (some c)).isSome = true) :
    c ≠ 'n' ∧ c ≠ 't' ∧ c ≠ 'f' ∧ c ≠ '"' := by
  obtain rfl | hc := hc
  · decide
  · refine ⟨?_, ?_, ?_, ?_⟩ <;> (rintro rfl; revert hc; decide)

theorem run?_value_number (hc : c = '-' ∨ (digit? (some c)).isSome = true)
    (hhead : shown.head? = some (some c))
    (hshown : run? blanks input = some (shown.head?, shown)) :
    run? (value depth) input = (run? numeral shown).map fun r => (.number r.1, r.2) := by
  obtain ⟨nested, hnested⟩ := exists_valueAround depth
  obtain ⟨hn, ht, hf, hquote⟩ := ne_of_numeral hc
  rw [hhead] at hshown
  rw [hnested]
  unfold valueAround
  rw [run?_bind, hshown, Option.bind_some]
  simp [hn, ht, hf, hquote, hc]

/-- An integer is found where a numeral begins. -/
theorem run?_scalar_number (hc : c = '-' ∨ (digit? (some c)).isSome = true)
    (hhead : shown.head? = some (some c))
    (hshown : run? blanks input = some (shown.head?, shown)) :
    run? scalar input = (run? numeral shown).map fun r => ((Value.number r.1).found, r.2) := by
  obtain ⟨hn, ht, hf, hquote⟩ := ne_of_numeral hc
  rw [hhead] at hshown
  unfold scalar
  rw [run?_bind, hshown, Option.bind_some]
  simp only [hn, ht, hf, hquote, hc, if_true, if_false, run?_bind]
  cases run? numeral shown with
  | none => rfl
  | some r =>
    obtain ⟨_ | _, _⟩ := r <;> rfl

/-- Where no numeral begins, no integer is found. -/
theorem found_of_run?_scalar {found : Found} {rest : Input}
    (hnone : ∀ c, shown.head? = some (some c) → ¬ (c = '-' ∨ (digit? (some c)).isSome = true))
    (hshown : run? blanks input = some (shown.head?, shown))
    (h : run? scalar input = some (found, rest)) : ∀ n, found ≠ .integer n := by
  unfold scalar at h
  rw [run?_bind, hshown, Option.bind_some] at h
  match hhead : shown.head? with
  | none => simp [hhead] at h
  | some none => simp [hhead] at h
  | some (some c) =>
    simp only [hhead, run?_ite, run?_bind, run?_seqRight, run?_map, run?_pure,
      if_neg (hnone c hhead), run?_advance] at h
    rintro n rfl
    split_ifs at h <;> simp [Option.bind_eq_some_iff] at h

end Shown

namespace Shape

/-- Nothing but an integer is made an integer. -/
theorem toOption_ofInteger_eq_none {found : Found} (h : ∀ n, found ≠ .integer n) :
    (ofInteger found).toOption = none := by
  cases found with
  | integer n => exact absurd rfl (h n)
  | _ => rfl

theorem deferrable_integer (depth : Nat) (input : Input) : integer.Deferrable depth input := by
  obtain ⟨shown, hshown, -⟩ := run?_blanks input
  have hread : run? (integer.read depth) input = (run? scalar input).bind fun r =>
      (ofInteger r.1).toOption.map (·, r.2) := by
    simp [integer]
  by_cases hnumeral :
      ∃ c, shown.head? = some (some c) ∧ (c = '-' ∨ (digit? (some c)).isSome = true)
  · obtain ⟨c, hhead, hc⟩ := hnumeral
    refine deferrable_of_map (f := fun n => (ofInteger (Value.number n).found).toOption)
      (g := .number) ?_ (run?_value_number hc hhead hshown) fun _ => rfl
    rw [hread, run?_scalar_number hc hhead hshown, Option.bind_map]
    rfl
  · have hnone : ∀ c, shown.head? = some (some c) →
        ¬ (c = '-' ∨ (digit? (some c)).isSome = true) :=
      fun c hhead hc => hnumeral ⟨c, hhead, hc⟩
    apply deferrable_of_none
    · rw [hread]
      cases hscalar : run? scalar input with
      | none => rfl
      | some r =>
        simp [toOption_ofInteger_eq_none (found_of_run?_scalar hnone hshown hscalar)]
    · intro v rest hv
      obtain ⟨c, hc, hopens⟩ := run?_value_opens hshown hv
      apply toOption_ofInteger_eq_none
      cases v with
      | number => exact absurd hopens (hnone c hc)
      | _ => simp [Value.found]

/-! ### Tests, and values of which nothing is kept -/

theorem deferrable_checked (test : Value → Bool) (cause : Cause) (depth : Nat) (input : Input) :
    (checked test cause).Deferrable depth input := by
  unfold Shape.Deferrable Json.Deferrable checked
  rw [run?_bind]
  cases run? (value depth) input with
  | none => rfl
  | some r =>
    simp only [Option.bind_some]
    split_ifs <;> simp [Except.toOption, refuse]

theorem deferrable_discarded {shape : Shape α} {depth : Nat} {input : Input}
    (h : shape.Deferrable depth input) : shape.discarded.Deferrable depth input := by
  have hshape : run? (shape.read depth) input = _ := h
  unfold Shape.Deferrable Json.Deferrable discarded
  rw [run?_discard, hshape]
  cases run? (value depth) input with
  | none => rfl
  | some r =>
    simp only [Option.bind_some]
    cases shape.decode r.1 <;> rfl

end Shape

/-! ### Lists -/

theorem toOption_mapM (decode : Value → Except Fault α) (vs : List Value) :
    (vs.mapM decode).toOption = vs.mapM fun v => (decode v).toOption := by
  induction vs with
  | nil => rfl
  | cons v vs ih =>
    simp only [List.mapM_cons, ← ih]
    cases decode v with
    | error _ => rfl
    | ok x => cases vs.mapM decode <;> rfl

theorem mapM_eq_some_iff {f : α → Option β} {xs : List α} {ys : List β} :
    xs.mapM f = some ys ↔ List.Forall₂ (fun x y => f x = some y) xs ys := by
  induction xs generalizing ys with
  | nil => simp [eq_comm]
  | cons x xs ih =>
    simp only [List.mapM_cons, Option.bind_eq_bind, Option.pure_def, Option.bind_eq_some_iff, ih,
      Option.some.injEq, List.forall₂_cons_left_iff]
    constructor
    · rintro ⟨y, hy, ys, hys, rfl⟩
      exact ⟨y, ys, hy, hys, rfl⟩
    · rintro ⟨y, ys, hy, hys, rfl⟩
      exact ⟨y, hy, ys, hys, rfl⟩

theorem mapM_eq_none_of_mem {f : α → Option β} {xs : List α} {x : α} (hmem : x ∈ xs)
    (h : f x = none) : xs.mapM f = none := by
  induction hmem with
  | head => simp [h]
  | @tail y xs _ ih => cases hy : f y <;> simp [hy, ih]

/-- The items of an array that have been read stay in front of those that follow. -/
theorem run?_items_append {item : Reader α} {turns : Nat} {before xs : List α} {input rest : Input}
    (h : run? (items item turns before) input = some (xs, rest)) :
    ∃ more, xs = before.reverse ++ more := by
  induction turns generalizing before input with
  | zero => cases h
  | succ turns ih =>
    simp only [items, run?_bind, Option.bind_eq_some_iff] at h
    obtain ⟨⟨_ | _, input'⟩, -, h⟩ := h
    · obtain ⟨rfl, -⟩ : before.reverse = xs ∧ input'.tail = rest := by simpa using h
      exact ⟨[], (List.append_nil _).symm⟩
    · simp only [if_true, run?_bind, run?_within, Option.bind_eq_some_iff] at h
      obtain ⟨x, -, hmore⟩ := h
      obtain ⟨more, rfl⟩ := ih hmore
      exact ⟨x.1 :: more, by simp⟩

/-- What has been made of the items so far goes on as what is made of those kept so far. -/
theorem run?_items_deferrable {item : Reader α} {meaning : Value → Option α} {depth : Nat}
    (h : ∀ input, Deferrable item meaning depth input) (turns : Nat) {before : List Value}
    {made : List α} (hbefore : List.Forall₂ (fun v x => meaning v = some x) before made)
    (input : Input) :
    run? (items item turns made) input =
      (run? (items (value depth) turns before) input).bind fun r =>
        (r.1.mapM meaning).map (·, r.2) := by
  induction turns generalizing before made input with
  | zero => rfl
  | succ turns ih =>
    have hempty : made.isEmpty = before.isEmpty := by cases hbefore <;> rfl
    simp only [items, run?_bind, hempty]
    cases run? (nextItem before.isEmpty) input with
    | none => rfl
    | some r =>
      obtain ⟨_ | _, input'⟩ := r
      · have hmade := mapM_eq_some_iff.mpr (List.forall₂_reverse_iff.mpr hbefore)
        simp [hmade]
      · have hitem : run? item input' = _ := h input'
        simp only [Option.bind_some, if_true, run?_bind, run?_within, hitem]
        cases run? (value depth) input' with
        | none => rfl
        | some s =>
          cases hmeaning : meaning s.1 with
          | some x => simp [hmeaning, ih (.cons hmeaning hbefore)]
          | none =>
            -- An item without a meaning stays among the items that are kept.
            simp only [Option.bind_some, hmeaning, Option.map_none, Option.bind_none]
            cases hkept : run? (items (value depth) turns (s.1 :: before)) s.2 with
            | none => rfl
            | some t =>
              obtain ⟨more, hmore⟩ := run?_items_append hkept
              have hmem : s.1 ∈ t.1 := by simp [hmore]
              simp [mapM_eq_none_of_mem hmem hmeaning]

theorem Shape.deferrable_listOf {shape : Shape α}
    (h : ∀ depth input, shape.Deferrable depth input) (depth : Nat) (input : Input) :
    (listOf shape).Deferrable depth input := by
  obtain ⟨shown, hshown, -⟩ := run?_blanks input
  obtain ⟨more, rfl⟩ | hbracket := head?_cases shown '['
  · cases depth with
    | zero =>
      have hvalue := run?_value_zero (.inl rfl) hshown
      simp [Shape.Deferrable, Json.Deferrable, listOf, hshown, hvalue]
    | succ depth =>
      have hitems := run?_items_deferrable (h depth) (more.length + 1) .nil more
      have hdecode : ∀ vs, ((listOf shape).decode (.array vs)).toOption =
          vs.mapM fun v => (shape.decode v).toOption := toOption_mapM shape.decode
      refine deferrable_of_map (g := .array) ?_ (run?_value_array hshown) hdecode
      rw [← hitems]
      simp [listOf, hshown]
  · apply deferrable_of_none
    · simp [listOf, hshown]
    · intro v rest hv
      obtain ⟨c, hc, hopens⟩ := run?_value_opens hshown hv
      cases v with
      | array => exact absurd (hopens ▸ hc) hbracket
      | _ => rfl

/-! ### Slots for kept values -/

/-- The same slot for other entries, once it is said which of its own entries they stand for. -/
def Slot.through {σ τ : Type} (inner? : σ → Option τ) (slot : Slot δ τ) : Slot δ σ where
  isNamed := slot.isNamed
  given := slot.given
  put x draft := (inner? x).bind (slot.put · draft)

theorem find?_through {σ τ : Type} (inner? : σ → Option τ) (slots : List (Slot δ τ))
    (key : String) : (slots.map (Slot.through inner?)).find? (·.isNamed key) =
      (slots.find? (·.isNamed key)).map (Slot.through inner?) :=
  List.find?_map

/-- The same slot for entries that are written. -/
def Slot.written (depth : Nat) (slot : Slot δ Value) : Slot δ Tree :=
  slot.through (Tree.valueWithin? depth)

/-- A slot says what a field makes of the value that would be kept, whatever the input is. -/
structure Field.Takes (field : Field δ) (depth : Nat) (slot : Slot δ Value) : Prop where
  isNamed : ∀ key, field.isNamed key = slot.isNamed key
  given : ∀ draft, field.given draft = slot.given draft
  read : ∀ draft input, Deferrable (field.read depth draft) (slot.put · draft) depth input

theorem Field.takes_of (name : String) (aliases : List String) (required : Bool) {shape : Shape β}
    {depth : Nat} {meaning : Value → Option β}
    (h : ∀ input, Deferrable (shape.read depth) meaning depth input) (get : δ → Option β)
    (set : β → δ → δ) : (Field.of name aliases required shape get set).Takes depth
      (Slot.of (name :: aliases) meaning get set) where
  isNamed key := by simp [Field.isNamed, Field.of, Slot.of]
  given _ := rfl
  read draft input := by
    have hshape : run? (shape.read depth) input = _ := h input
    simp only [Deferrable, Field.of, Slot.of, run?_bind, hshape, run?_pure]
    cases run? (value depth) input with
    | none => rfl
    | some r =>
      simp only [Option.bind_some]
      cases meaning r.1 <;> rfl

theorem Field.Takes.reads {field : Field δ} {depth : Nat} {slot : Slot δ Value}
    (h : field.Takes depth slot) : field.Reads depth (slot.written depth) where
  isNamed := h.isNamed
  given := h.given
  read draft := interprets_of_deferrable (h.read draft)

/-- The slots say what the fields of a record make of kept values. -/
def Record.Takes (r : Record δ α) (depth : Nat) (slots : List (Slot δ Value)) : Prop :=
  List.Forall₂ (fun field slot => field.Takes depth slot) r.fields slots

namespace Record

variable {r : Record δ α} {slots : List (Slot δ Value)}

theorem Takes.reads {depth : Nat} (h : r.Takes depth slots) :
    r.Reads depth (slots.map (Slot.written depth)) := by
  rw [Record.Reads, List.forall₂_map_right_iff]
  exact h.imp fun _ _ hfield => hfield.reads

/-- A record is made of an object or an array as its slots say. -/
theorem Takes.interprets_read (h : ∀ depth, r.Takes depth slots) (depth : Nat) :
    Interprets (r.read depth) (r.meaning? (fun depth => slots.map (Slot.written depth)) depth) :=
  Record.interprets_read (fun depth => (h depth).reads) depth

end Record

end RoomRelay.Json
