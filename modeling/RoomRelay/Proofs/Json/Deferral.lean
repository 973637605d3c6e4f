import Mathlib.Data.List.DropRight
import RoomRelay.Proofs.Json.Reading

/-!
# Reading now and decoding later

A shape makes something of a text in two ways. It reads the text as it stands, or it decodes a value
that was kept of the text before anyone knew what it was for. This file compares the two on the same
input, whatever the input is: a text, the beginning of one, or no text at all. A reader is
*deferrable* if both ways come to the same result and leave the same rest, and if one of them fails
where the other does.

The readers of fields are deferrable on every input. A choice is not quite: where a word is spelt as
an object that maps it to `null`, what is kept may also map it to an object without fields.

## Main definitions

* `Value.Opens` — the characters with which a value begins
* `Deferrable`, `Shape.Deferrable` — reading now is decoding later
* `Choice.ofValue?` — what a choice makes of a kept value when it is as strict as its reader

## Main results

* `run?_value_opens` — what is kept can be told by its first character
* `Shape.deferrable_text`, `Shape.deferrable_flag`, `Shape.deferrable_any`,
  `Shape.deferrable_optional` — the shapes of fields
* `Choice.deferrable_read`, `Choice.toOption_decode_of_ne` — choices, and how they differ
-/

namespace RoomRelay.Json

variable {α β : Type}

/-! ### What is kept, by its first character -/

/-- The characters with which a value begins. -/
def Value.Opens : Value → Char → Prop
  | .null, c => c = 'n'
  | .bool b, c => c = if b then 't' else 'f'
  | .number _, c => c = '-' ∨ (digit? c).isSome = true
  | .string _, c => c = '"'
  | .array _, c => c = '['
  | .object _, c => c = '\x7b'

/-- Blanks are dropped and the next symbol is shown; dropping them again changes nothing. -/
theorem run?_blanks (input : Input) : ∃ shown, run? blanks input = some (shown.head?, shown) ∧
    run? blanks shown = some (shown.head?, shown) := by
  refine ⟨input.dropWhile isBlankSymbol, rfl, ?_⟩
  simp [run?, blanks, List.dropWhile_idempotent, Except.toOption]

theorem head?_cases (shown : Input) (c : Char) :
    (∃ more, shown = some c :: more) ∨ shown.head? ≠ some (some c) := by
  by_cases h : shown.head? = some (some c)
  · exact .inl (List.head?_eq_some_iff.mp h)
  · exact .inr h

theorem exists_valueAround (depth : Nat) : ∃ nested, value depth = valueAround nested := by
  cases depth with
  | zero => exact ⟨none, rfl⟩
  | succ depth => exact ⟨some (value depth), rfl⟩

section Shown

variable {depth : Nat} {input shown more : Input}

/-- What is kept can be told by its first character. -/
theorem run?_value_opens {rest : Input} {v : Value}
    (hshown : run? blanks input = some (shown.head?, shown))
    (h : run? (value depth) input = some (v, rest)) :
    ∃ c, shown.head? = some (some c) ∧ v.Opens c := by
  obtain ⟨nested, hnested⟩ := exists_valueAround depth
  rw [hnested] at h
  unfold valueAround at h
  rw [run?_bind, hshown, Option.bind_some] at h
  match hhead : shown.head? with
  | none => simp [hhead] at h
  | some none => simp [hhead] at h
  | some (some c) =>
    refine ⟨c, rfl, ?_⟩
    -- A word stands for one value only.
    have hword : ∀ {cs : List Char} {w : Value},
        run? (word cs *> pure w) shown = some (v, rest) → w = v := by
      intro cs w hw
      simp only [run?_seqRight, run?_pure, Option.bind_eq_some_iff] at hw
      obtain ⟨_, _, ⟨⟩⟩ := hw
      rfl
    simp only [hhead, run?_ite] at h
    split_ifs at h with hn ht hf hquote hdigit hbracket hbrace
    · exact hword h ▸ hn
    · exact hword h ▸ ht
    · exact hword h ▸ hf
    · obtain ⟨text, -, rfl⟩ : ∃ text, run? string shown.tail = some (text, rest) ∧
          .string text = v := by simpa using h
      exact hquote
    · obtain ⟨n, -, rfl⟩ : ∃ n, run? numeral shown = some (n, rest) ∧ .number n = v := by
        simpa using h
      exact hdigit
    · cases nested with
      | none => cases h
      | some inner =>
        obtain ⟨vs, -, rfl⟩ : ∃ vs, run? (items inner (shown.length - 1 + 1) []) shown.tail =
            some (vs, rest) ∧ .array vs = v := by simpa using h
        exact hbracket
    · cases nested with
      | none => cases h
      | some inner =>
        obtain ⟨fields, -, rfl⟩ : ∃ fields, run? (members inner (shown.length - 1 + 1) [])
            shown.tail = some (fields, rest) ∧ .object fields = v := by simpa using h
        exact hbrace
    · cases h

/-- Blanks in front are of no account. -/
theorem run?_value_shown (hshown : run? blanks input = some (shown.head?, shown))
    (hagain : run? blanks shown = some (shown.head?, shown)) :
    run? (value depth) shown = run? (value depth) input := by
  obtain ⟨nested, hnested⟩ := exists_valueAround depth
  rw [hnested]
  unfold valueAround
  rw [run?_bind, run?_bind, hshown, hagain]

theorem run?_value_null (h : run? blanks input = some (some (some 'n'), shown)) :
    run? (value depth) input = (run? (word "null".toList) shown).map fun r => (.null, r.2) := by
  obtain ⟨nested, hnested⟩ := exists_valueAround depth
  rw [hnested]
  unfold valueAround
  simp only [run?_bind, h, Option.bind_some, if_true, run?_seqRight, run?_pure]
  exact Option.map_eq_bind.symm

theorem run?_value_bool (b : Bool)
    (h : run? blanks input = some (some (some (if b then 't' else 'f')), shown)) :
    run? (value depth) input =
      (run? (word (if b then "true" else "false").toList) shown).map fun r => (.bool b, r.2) := by
  obtain ⟨nested, hnested⟩ := exists_valueAround depth
  rw [hnested, Option.map_eq_bind]
  unfold valueAround
  rw [run?_bind, h, Option.bind_some]
  cases b <;> simp

theorem run?_value_string (h : run? blanks input = some (some (some '"'), some '"' :: more)) :
    run? (value depth) input = (run? string more).map fun r => (.string r.1, r.2) := by
  obtain ⟨nested, hnested⟩ := exists_valueAround depth
  rw [hnested]
  unfold valueAround
  rw [run?_bind, h, Option.bind_some]
  simp

theorem run?_value_array (h : run? blanks input = some (some (some '['), some '[' :: more)) :
    run? (value (depth + 1)) input =
      (run? (items (value depth) (more.length + 1) []) more).map fun r => (.array r.1, r.2) := by
  change run? (valueAround (some (value depth))) input = _
  unfold valueAround
  rw [run?_bind, h, Option.bind_some]
  simp [digit?_some]

theorem run?_value_object
    (h : run? blanks input = some (some (some '\x7b'), some '\x7b' :: more)) :
    run? (value (depth + 1)) input =
      (run? (members (value depth) (more.length + 1) []) more).map fun r => (.object r.1, r.2) := by
  change run? (valueAround (some (value depth))) input = _
  unfold valueAround
  rw [run?_bind, h, Option.bind_some]
  simp [digit?_some]

/-- Nothing opens where no depth is left. -/
theorem run?_value_zero {c : Char} (hc : c = '[' ∨ c = '\x7b')
    (h : run? blanks input = some (some (some c), some c :: more)) :
    run? (value 0) input = none := by
  change run? (valueAround none) input = none
  unfold valueAround
  rw [run?_bind, h, Option.bind_some]
  obtain rfl | rfl := hc <;> simp [digit?_some]

end Shown

/-! ### Deferrable readers -/

/-- On this input, what a reader makes is what is decoded from the value that is kept. -/
def Deferrable (reader : Reader α) (decode : Value → Option α) (depth : Nat) (input : Input) :
    Prop :=
  run? reader input = (run? (value depth) input).bind fun r => (decode r.1).map (·, r.2)

/-- The same of a shape. -/
def Shape.Deferrable (shape : Shape α) (depth : Nat) (input : Input) : Prop :=
  Json.Deferrable (shape.read depth) (fun v => (shape.decode v).toOption) depth input

section Deferrable

variable {reader : Reader α} {decode : Value → Option α} {depth : Nat} {input : Input}

/-- A reader that fails is deferrable if nothing that is kept can be decoded. -/
theorem deferrable_of_none (hread : run? reader input = none)
    (hdecode : ∀ v rest, run? (value depth) input = some (v, rest) → decode v = none) :
    Deferrable reader decode depth input := by
  rw [Deferrable, hread]
  cases h : run? (value depth) input with
  | none => rfl
  | some r => simp [hdecode r.1 r.2 h]

/-- A reader is deferrable if it takes the same of the input as the reader of kept values. -/
theorem deferrable_of_map {γ : Type} {taken : Option (γ × Input)} {f : γ → Option α} {g : γ → Value}
    (hread : run? reader input = taken.bind fun r => (f r.1).map (·, r.2))
    (hvalue : run? (value depth) input = taken.map fun r => (g r.1, r.2))
    (hdecode : ∀ x, decode (g x) = f x) : Deferrable reader decode depth input := by
  rw [Deferrable, hread, hvalue]
  cases taken with
  | none => rfl
  | some r => simp [hdecode]

end Deferrable

namespace Shape

theorem deferrable_text (depth : Nat) (input : Input) : text.Deferrable depth input := by
  obtain ⟨shown, hshown, -⟩ := run?_blanks input
  obtain ⟨more, rfl⟩ | hquote := head?_cases shown '"'
  · refine deferrable_of_map (f := some) (g := .string) ?_ (run?_value_string hshown) fun _ => rfl
    have hread : run? (text.read depth) input = run? string more := by simp [text, hshown]
    exact hread.trans (Option.bind_fun_some _).symm
  · -- What is kept is no string, for a string begins with a quotation mark.
    apply deferrable_of_none
    · simp [text, hshown]
    · intro v rest hv
      obtain ⟨c, hc, hopens⟩ := run?_value_opens hshown hv
      cases v with
      | string => exact absurd (hopens ▸ hc) hquote
      | _ => rfl

theorem deferrable_flag (depth : Nat) (input : Input) : flag.Deferrable depth input := by
  obtain ⟨shown, hshown, -⟩ := run?_blanks input
  by_cases hbool : ∃ b : Bool, shown.head? = some (some (if b then 't' else 'f'))
  · obtain ⟨b, hb⟩ := hbool
    rw [hb] at hshown
    refine deferrable_of_map (f := fun _ => some b) (g := fun _ => .bool b) ?_
      (run?_value_bool b hshown) fun _ => rfl
    cases b <;> simp [flag, hshown]
  · apply deferrable_of_none
    · have hfalse : shown.head? ≠ some (some 'f') := fun h => hbool ⟨false, h⟩
      have htrue : shown.head? ≠ some (some 't') := fun h => hbool ⟨true, h⟩
      simp [flag, hshown]
    · intro v rest hv
      obtain ⟨c, hc, hopens⟩ := run?_value_opens hshown hv
      cases v with
      | bool b => exact absurd ⟨b, hopens ▸ hc⟩ hbool
      | _ => rfl

theorem deferrable_any (depth : Nat) (input : Input) : any.Deferrable depth input := by
  unfold Shape.Deferrable Json.Deferrable any
  cases h : run? (value depth) input <;> simp [h, Except.toOption]

theorem decode_optional (shape : Shape α) {v : Value} (h : v ≠ .null) :
    (optional shape).decode v = some <$> shape.decode v := by
  cases v <;> first | rfl | exact absurd rfl h

theorem deferrable_optional {shape : Shape α} {depth : Nat}
    (h : ∀ input, shape.Deferrable depth input) (input : Input) :
    (optional shape).Deferrable depth input := by
  obtain ⟨shown, hshown, hagain⟩ := run?_blanks input
  by_cases hnull : shown.head? = some (some 'n')
  · rw [hnull] at hshown
    refine deferrable_of_map (f := fun _ => some none) (g := fun _ => .null) ?_
      (run?_value_null hshown) fun _ => rfl
    simp [optional, hshown]
  · -- The reader inside begins where the blanks end.
    have hread : run? ((optional shape).read depth) input =
        (run? (shape.read depth) shown).map fun r => (some r.1, r.2) := by
      simp [optional, hshown]
    have hshape : run? (shape.read depth) shown = _ := h shown
    rw [run?_value_shown hshown hagain] at hshape
    unfold Shape.Deferrable Json.Deferrable
    rw [hread, hshape]
    cases hv : run? (value depth) input with
    | none => rfl
    | some r =>
      have hne : r.1 ≠ .null := by
        intro heq
        obtain ⟨c, hc, hopens⟩ := run?_value_opens hshown hv
        rw [heq] at hopens
        exact hnull (hopens ▸ hc)
      simp only [Option.bind_some, decode_optional shape hne]
      cases shape.decode r.1 <;> rfl

end Shape

/-! ### Choices -/

/-- The fields of an object that have been read stay in front of those that follow. -/
theorem run?_members_append {item : Reader α} {turns : Nat} {before fields : List (String × α)}
    {input rest : Input} (h : run? (members item turns before) input = some (fields, rest)) :
    ∃ more, fields = before.reverse ++ more := by
  -- Each turn puts one field on top of those before it, which are turned round at the end.
  induction turns generalizing before input with
  | zero => cases h
  | succ turns ih =>
    simp only [members, run?_bind, run?_within, Option.bind_eq_some_iff] at h
    obtain ⟨⟨name, input'⟩, -, h⟩ := h
    cases name with
    | none =>
      obtain ⟨rfl, -⟩ : before.reverse = fields ∧ input'.tail = rest := by simpa using h
      exact ⟨[], (List.append_nil _).symm⟩
    | some name =>
      simp only [run?_bind, Option.bind_eq_some_iff] at h
      obtain ⟨x, -, hmore⟩ := h
      obtain ⟨more, rfl⟩ := ih hmore
      exact ⟨(name, x.1) :: more, by simp⟩

/-- Where an object does not end, another key follows. -/
theorem run?_nextKey_ne_none {first : Bool} {input shown rest : Input}
    (hshown : run? blanks input = some (shown.head?, shown))
    (hbrace : shown.head? ≠ some (some '\x7d')) :
    run? (nextKey first) input ≠ some (none, rest) := by
  intro h
  unfold nextKey at h
  rw [run?_bind, hshown, Option.bind_some] at h
  split at h
  · cases h
  · next heq => exact hbrace heq
  · simp only [run?_ite, run?_bind, run?_map, run?_discard, run?_fail] at h
    split_ifs at h
    all_goals simp [Option.bind_eq_some_iff] at h

/-- A key begins with a quotation mark. -/
theorem run?_nextKey_first_ne_some {input shown rest : Input} {name : String}
    (hshown : run? blanks input = some (shown.head?, shown))
    (hquote : shown.head? ≠ some (some '"')) :
    run? (nextKey true) input ≠ some (some name, rest) := by
  intro h
  unfold nextKey at h
  rw [run?_bind, hshown, Option.bind_some] at h
  split at h
  · cases h
  · cases h
  · next symbol _ heq =>
    have hne : symbol ≠ some '"' := by
      rintro rfl
      exact hquote heq
    simp [hne] at h

namespace Choice

/-- `null`, and nothing else, belongs to a word. -/
theorem deferrable_unit (depth : Nat) (input : Input) :
    Deferrable Choice.unit (fun v => if v = .null then some () else none) depth input := by
  obtain ⟨shown, hshown, -⟩ := run?_blanks input
  by_cases hnull : shown.head? = some (some 'n')
  · rw [hnull] at hshown
    refine deferrable_of_map (f := fun _ => some ()) (g := fun _ => .null) ?_
      (run?_value_null hshown) fun _ => rfl
    have hread : run? Choice.unit input = run? (word "null".toList) shown := by
      simp [Choice.unit, hshown]
    exact hread.trans (Option.bind_fun_some _).symm
  · apply deferrable_of_none
    · simp [Choice.unit, hshown]
    · intro v rest hv
      obtain ⟨c, hc, hopens⟩ := run?_value_opens hshown hv
      rw [if_neg]
      rintro rfl
      exact hnull (hopens ▸ hc)

/-- The end of an object behind its only field. -/
def closing : Reader Unit := do
  match ← blanks with
  | none => fail .endInObject
  | some (some '\x7d') => advance
  | some _ => fail .noValue

/-- An object ends behind its first field, or it has another one. -/
theorem run?_members_single (item : Reader α) (turns : Nat) (field : String × α) (input : Input) :
    run? (members item (turns + 1) [field]) input =
        (run? closing input).map (fun r => ([field], r.2)) ∨
      run? closing input = none ∧ ∀ fields rest,
        run? (members item (turns + 1) [field]) input = some (fields, rest) →
          2 ≤ fields.length := by
  obtain ⟨shown, hshown, -⟩ := run?_blanks input
  obtain ⟨more, rfl⟩ | hbrace := head?_cases shown '\x7d'
  · left
    simp [members, closing, nextKey, hshown]
  · right
    constructor
    · rw [closing, run?_bind, hshown, Option.bind_some]
      split
      · rfl
      · next heq => exact absurd heq hbrace
      · rfl
    · intro fields rest h
      simp only [members, run?_bind, run?_within, Option.bind_eq_some_iff] at h
      obtain ⟨⟨name, input'⟩, hkey, h⟩ := h
      cases name with
      | none => exact absurd hkey (run?_nextKey_ne_none hshown hbrace)
      | some name =>
        simp only [run?_bind, Option.bind_eq_some_iff] at h
        obtain ⟨x, -, hmore⟩ := h
        obtain ⟨more, rfl⟩ := run?_members_append hmore
        simp

variable (choice : Choice α)

/-- What the fields of an object stand for: a single one, which maps a word to `null`. -/
def sole? : List (String × Value) → Option α
  | [(name, .null)] => choice.find? name
  | _ => none

/-- What a kept value stands for, if nothing but `null` counts as `null`. -/
def ofValue? : Value → Option α
  | .string name => choice.find? name
  | .object fields => choice.sole? fields
  | _ => none

theorem sole?_single (name : String) (v : Value) :
    choice.sole? [(name, v)] = if v = .null then choice.find? name else none := by
  split_ifs with h
  · rw [h]
    rfl
  · cases v <;> first | rfl | exact absurd rfl h

theorem sole?_of_two_le {fields : List (String × Value)} (h : 2 ≤ fields.length) :
    choice.sole? fields = none := by
  match fields, h with
  | _ :: _ :: _, _ => simp [sole?]

/-- What an object stands for whose first field has been read. -/
theorem run?_members_sole? {item : Reader Value} (turns : Nat) (name : String) (v : Value)
    (input : Input) :
    ((run? (members item (turns + 1) [(name, v)]) input).bind fun r =>
        (choice.sole? r.1).map (·, r.2)) =
      if v = .null then
        (choice.find? name).bind fun x => (run? closing input).map fun r => (x, r.2)
      else none := by
  obtain hone | ⟨hclosing, htwo⟩ := run?_members_single item turns (name, v) input
  · rw [hone]
    cases run? closing input with
    | none => simp
    | some r =>
      simp only [Option.map_some, Option.bind_some, sole?_single]
      split_ifs
      · exact Option.map_eq_bind
      · rfl
  · -- With a second field, the object stands for nothing, and it is not closed.
    cases h : run? (members item (turns + 1) [(name, v)]) input with
    | none => simp [hclosing]
    | some r => simp [hclosing, choice.sole?_of_two_le (htwo r.1 r.2 h)]

/-- Behind an opening brace, the parts of a choice are read one after the other. -/
theorem run?_inside_eq (input : Input) :
    run? choice.inside input = (run? identifier input).bind fun r => (choice.find? r.1).bind
      fun x => (run? colon r.2).bind fun s => (run? Choice.unit s.2).bind
        fun t => (run? closing t.2).map fun u => (x, u.2) := by
  simp only [inside, run?_bind, run?_liftM, choice.toOption_find, run?_within]
  cases run? identifier input with
  | none => rfl
  | some r =>
    cases hfind : choice.find? r.1 with
    | none => simp [hfind]
    | some x =>
      simp only [hfind, Option.map_some, Option.bind_some]
      congr 1
      funext s
      congr 1
      funext t
      obtain ⟨shown, hshown, -⟩ := run?_blanks t.2
      simp only [closing, run?_bind, hshown, Option.bind_some]
      split <;> simp_all

theorem run?_inside_eq_members (depth : Nat) (input : Input) :
    run? choice.inside input = (run? (members (value depth) (input.length + 1) []) input).bind
      fun r => (choice.sole? r.1).map (·, r.2) := by
  obtain ⟨shown, hshown, -⟩ := run?_blanks input
  rw [run?_inside_eq]
  obtain ⟨more, rfl⟩ | hquote := head?_cases shown '"'
  · -- Both readers take a key, its colon and a value; then the object ends or goes on.
    obtain ⟨turns, hturns⟩ : ∃ turns, input.length = turns + 1 := by
      cases input with
      | nil => cases hshown
      | cons s input => exact ⟨_, rfl⟩
    have hidentifier : run? identifier input = run? string more := by
      simp [identifier, hshown]
    have hkey : run? (nextKey true) input = (run? string more).map fun r => (some r.1, r.2) := by
      simp [nextKey, hshown]
    have hunit : ∀ input, run? Choice.unit input = _ := deferrable_unit depth
    rw [hidentifier, hturns, members]
    simp only [List.isEmpty_nil, run?_bind, run?_within, hkey, hunit]
    cases run? string more with
    | none => rfl
    | some r =>
      simp only [Option.map_some, Option.bind_some, run?_bind, run?_within, run?_seqRight]
      cases run? colon r.2 with
      | none => simp
      | some s =>
        simp only [Option.bind_some]
        cases run? (value depth) s.2 with
        | none => simp
        | some t =>
          simp only [Option.bind_some, run?_members_sole?]
          split_ifs <;> simp
  · -- Without a key, an object may still be kept, but it is empty.
    have hidentifier : run? identifier input = none := by simp [identifier, hshown]
    rw [hidentifier, members]
    simp only [List.isEmpty_nil, run?_bind, run?_within, Option.bind_none]
    cases hkey : run? (nextKey true) input with
    | none => rfl
    | some r =>
      obtain ⟨_ | name, rest⟩ := r
      · simp [sole?]
      · exact absurd hkey (run?_nextKey_first_ne_some hshown hquote)

/-- A choice is deferrable if nothing but `null` counts as `null`. -/
theorem deferrable_read (depth : Nat) (input : Input) :
    Deferrable (choice.read depth) choice.ofValue? depth input := by
  obtain ⟨shown, hshown, -⟩ := run?_blanks input
  obtain ⟨more, rfl⟩ | hquote := head?_cases shown '"'
  · refine deferrable_of_map (f := choice.find?) (g := .string) ?_ (run?_value_string hshown)
      fun _ => rfl
    simp [Choice.read, hshown, choice.toOption_find]
  · obtain ⟨more, rfl⟩ | hbrace := head?_cases shown '\x7b'
    · cases depth with
      | zero =>
        have hvalue := run?_value_zero (.inr rfl) hshown
        simp [Deferrable, Choice.read, hshown, hvalue]
      | succ depth =>
        have hread : run? (choice.read (depth + 1)) input = run? choice.inside more := by
          rw [Choice.read, run?_bind, hshown]
          rfl
        rw [Deferrable, hread, run?_value_object hshown, choice.run?_inside_eq_members depth,
          Option.bind_map]
        rfl
    · -- Anything else is not read, and what is kept of it is neither a text nor an object.
      apply deferrable_of_none
      · rw [Choice.read, run?_bind, hshown, Option.bind_some]
        split
        · rfl
        · next heq => exact absurd heq hquote
        · next heq => exact absurd heq hbrace
        · rfl
      · intro v rest hv
        obtain ⟨c, hc, hopens⟩ := run?_value_opens hshown hv
        cases v with
        | string => exact absurd (hopens ▸ hc) hquote
        | object => exact absurd (hopens ▸ hc) hbrace
        | _ => rfl

/-- Only an object that maps a word to an empty object is decoded though it would not be read. -/
theorem toOption_decode_of_ne {v : Value} (h : ∀ name, v ≠ .object [(name, .object [])]) :
    (choice.decode v).toOption = choice.ofValue? v := by
  match v with
  | .string name => exact choice.toOption_find name
  | .object [(name, inner)] =>
    have hinner : inner ≠ .object [] := by
      rintro rfl
      exact h name rfl
    rw [ofValue?, choice.sole?_single, ← choice.toOption_find]
    simp only [decode]
    split_ifs with hnull
    · rw [hnull]
      cases choice.find name <;> rfl
    · have hunit : decodeUnit inner = refuse (.wrongForm inner.found "unit") := by
        unfold decodeUnit
        split
        · exact absurd rfl hnull
        · exact absurd rfl hinner
        · rfl
      rw [hunit]
      cases choice.find name <;> rfl
  | .object [] => rfl
  | .object (_ :: _ :: _) => simp [ofValue?, sole?, decode, refuse, Except.toOption]
  | .null | .bool _ | .number _ | .array _ => rfl

end Choice

end RoomRelay.Json
