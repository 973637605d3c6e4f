import RoomRelay.Proofs.Json.Outline
import RoomRelay.Proofs.Json.Records

/-!
# The forms of a tagged value

A tagged value is written as an object with its tag in front, as an object with its content in
front, or as an array of the two. In the first form and the last the content is read as it stands;
in the second it is kept, and decoded once the tag is known. So the forms agree where a shape makes
of a text what it decodes from the value that is kept of it. The fields of a record have this
property on every text, and the record has it from its fields if no key of an object is unknown: an
unknown field is skipped when a record is read, but kept when it is not, and skipping is more
lenient.

## Main definitions

* `Shape.Defers`, `Field.Defers`, `Record.Defers` — what is read of a text is what is decoded from
  the value that is kept of it
* `Tagged.tagFirst`, `Tagged.contentFirst`, `Tagged.pair` — the three forms

## Main results

* `Record.defers` — records
* `Tagged.IsPlain.run?_forms` — the three forms agree
-/

namespace RoomRelay.Json

variable {α β δ κ : Type}

theorem toOption_bind {ε : Type} (result : Except ε α) (next : α → Except ε β) :
    (result >>= next).toOption = result.toOption.bind fun x => (next x).toOption := by
  cases result <;> rfl

/-! ### Shapes and fields -/

/-- What is read of a text is what is decoded from the value that is kept of it. -/
def Shape.Defers (shape : Shape α) (depth : Nat) (cs : List Char) : Prop :=
  Makes (shape.read depth) cs ((kept? depth cs).bind fun v => (shape.decode v).toOption)

/-- The same of a field, whatever the draft. -/
def Field.Defers (field : Field δ) (depth : Nat) (cs : List Char) : Prop :=
  ∀ draft, Makes (field.read depth draft) cs
    ((kept? depth cs).bind fun v => (field.decode v draft).toOption)

theorem Field.defers_of {name : String} {aliases : List String} {required : Bool} {shape : Shape β}
    {get : δ → Option β} {set : β → δ → δ} {depth : Nat} {cs : List Char}
    (h : shape.Defers depth cs) :
    (Field.of name aliases required shape get set).Defers depth cs := by
  intro draft b rest hb hrest
  simp only [Field.of, run?_bind, h hb hrest]
  cases kept? depth cs with
  | none => rfl
  | some v => cases hdecode : shape.decode v <;> simp [hdecode, Except.toOption]

namespace Written

variable {outline : Outline} {cs : List Char} (h : Written outline cs) (depth : Nat)
include h

theorem defers_text : Shape.text.Defers depth cs :=
  h.makes_of_deferrable fun _ _ => Shape.deferrable_text depth _

theorem defers_flag : Shape.flag.Defers depth cs :=
  h.makes_of_deferrable fun _ _ => Shape.deferrable_flag depth _

theorem defers_optional_any : (Shape.optional .any).Defers depth cs :=
  h.makes_of_deferrable fun _ _ => Shape.deferrable_optional (Shape.deferrable_any depth) _

/-- A text that maps a word to an empty object is decoded though it would not be read. -/
theorem defers_choice (choice : Choice α) (hentry : ¬ IsEmptyEntry cs) :
    choice.shape.Defers depth cs := by
  have hmakes := h.makes_of_deferrable fun _ _ => choice.deferrable_read depth _
  have hdecode : ((kept? depth cs).bind fun v => (choice.decode v).toOption) =
      (kept? depth cs).bind choice.ofValue? := by
    cases hkept : kept? depth cs with
    | none => rfl
    | some v =>
      -- The one value on which reading and decoding differ is kept of no other text.
      refine choice.toOption_decode_of_ne ?_
      rintro name rfl
      exact hentry (h.isEmptyEntry hkept)
  change Makes (choice.read depth) cs ((kept? depth cs).bind fun v => (choice.decode v).toOption)
  rwa [hdecode]

end Written

/-! ### Records -/

/-- What is read of the entries of a record is what is decoded from what is kept of them; every key
of an object names a field. -/
def Record.Defers (r : Record δ α) (depth : Nat) : Outline → Prop
  | .scalar => True
  | .array items => ∀ pair ∈ r.fields.zip items, pair.1.Defers depth pair.2
  | .object fields => ∀ entry ∈ fields, ∀ key ∈ name? entry.1,
      ∃ field, r.field? key = some field ∧ field.Defers depth entry.2

namespace Record

variable (r : Record δ α) {depth : Nat}

/-- An array is told from its items. -/
theorem defers_of_items {items : List (List Char)} {cs : List Char}
    (h : Written (.array items) cs)
    (hfields : ∀ (index : Nat) (field : Field δ) (item : List Char),
      r.fields[index]? = some field → items[index]? = some item →
      ∀ {outline : Outline}, Written outline item → field.Defers depth item) :
    r.Defers depth (.array items) := by
  rintro ⟨field, item⟩ hpair
  obtain ⟨index, hindex⟩ := List.mem_iff_getElem?.mp hpair
  obtain ⟨hfield, hitem⟩ := List.getElem?_zip_eq_some.mp hindex
  obtain ⟨outline, hwritten⟩ := h.item (List.mem_of_getElem? hitem)
  exact hfields index field item hfield hitem hwritten

/-- An object is told from its entries, if their keys are among some that name fields. -/
theorem defers_of_entries {entries : List (List Char × List Char)} {cs : List Char}
    (h : Written (.object entries) cs) {keys : List String}
    (hkeys : ∀ entry ∈ entries, ∃ key ∈ keys, Quoted key entry.1)
    (hfields : ∀ key ∈ keys, ∀ entry ∈ entries, Quoted key entry.1 →
      ∀ {outline : Outline}, Written outline entry.2 →
      ∃ field, r.field? key = some field ∧ field.Defers depth entry.2) :
    r.Defers depth (.object entries) := by
  intro entry hentry key' hkey'
  obtain ⟨key, hkey, hquoted⟩ := hkeys entry hentry
  obtain ⟨outline, hwritten⟩ := h.field hentry
  rw [name?_of_quoted hquoted] at hkey'
  obtain rfl : key = key' := Option.some.inj hkey'
  exact hfields key hkey entry hentry hquoted hwritten

theorem toOption_decodeItems_cons (index : Nat) (field : Field δ)
    (fields : List (Field δ)) (v : Value) (vs : List Value) (draft : δ) :
    (r.decodeItems index (field :: fields) (v :: vs) draft).toOption =
      (field.decode v draft).toOption.bind fun draft =>
        (r.decodeItems (index + 1) fields vs draft).toOption :=
  toOption_bind _ _

theorem toOption_decodeMembers_cons {key : String} {field : Field δ}
    (hfield : r.field? key = some field) (v : Value) (entries : List (String × Value))
    (draft : δ) :
    (r.decodeMembers ((key, v) :: entries) draft).toOption =
      if field.given draft then none
      else (field.decode v draft).toOption.bind fun draft =>
        (r.decodeMembers entries draft).toOption := by
  simp only [decodeMembers, hfield]
  split_ifs
  · rfl
  · exact toOption_bind _ _

/-- As many items are taken as there are fields; what follows them stays. -/
theorem run?_readItems_texts {fields : List (Field δ)} {texts : List (List Char)} {first : Bool}
    {cs : List Char} (hcs : ItemTexts first texts cs)
    (hwritten : ∀ text ∈ texts, ∃ outline, Written outline text)
    (hdefers : ∀ pair ∈ fields.zip texts, pair.1.Defers depth pair.2) (index : Nat)
    (hindex : (index == 0) = first) (rest : Input) :
    ∃ first more, ItemTexts first (texts.drop fields.length) more ∧ ∀ draft,
      run? (r.readItems depth index fields draft) (cs.map some ++ rest) =
        (((texts.take fields.length).mapM (kept? depth)).bind fun vs =>
          (r.decodeItems index fields vs draft).toOption).map (·, more.map some ++ rest) := by
  -- By induction on the fields: each takes an item, if there is one left.
  induction fields generalizing texts first cs index with
  | nil => exact ⟨first, cs, hcs, by simp [readItems, decodeItems, Except.toOption]⟩
  | cons field fields ih =>
    subst hindex
    cases hcs with
    | @nil _ b hb =>
      -- No item is left: a field that may be left out keeps its place in the draft.
      have hnext := run?_nextItem_nil (index == 0) hb rest
      obtain ⟨first', more, hmore, heq⟩ := ih (.nil blanks_nil) (by simp) (by simp) (index + 1) rfl
      refine ⟨first', more, by simpa using hmore, fun draft => ?_⟩
      simp only [List.map_append, List.map_cons, List.map_nil, List.append_assoc, List.cons_append,
        List.nil_append] at heq ⊢
      cases hrequired : field.required with
      | true => simp [readItems, hnext, hrequired, decodeItems, refuse, Except.toOption]
      | false => simpa [readItems, hnext, hrequired, decodeItems] using heq draft
    | @cons _ text texts lead more hlead hmore =>
      rw [List.forall_mem_cons] at hwritten
      rw [List.zip_cons_cons, List.forall_mem_cons] at hdefers
      obtain ⟨⟨outline, htext⟩, hwritten⟩ := hwritten
      obtain ⟨hfield, hdefers⟩ := hdefers
      obtain ⟨c, body, rfl, -, hblank, hclose, -⟩ := htext.opens
      have hnext := run?_nextItem_lead hlead hblank hclose
        (body.map some ++ (more.map some ++ rest))
      obtain ⟨first', more', hmore', heq⟩ := ih hmore hwritten hdefers (index + 1) rfl
      refine ⟨first', more', hmore', fun draft => ?_⟩
      have hread := hfield draft blanks_nil (hmore.ends rest)
      simp only [List.map_append, List.map_cons, List.append_assoc, List.cons_append, List.map_nil,
        List.nil_append] at hread ⊢
      simp only [readItems, run?_bind, hnext, Option.bind_some, if_true, run?_within, hread,
        List.length_cons, List.take_succ_cons, List.mapM_cons]
      cases kept? depth (c :: body) with
      | none => rfl
      | some v =>
        simp only [Option.bind_some, Option.bind_eq_bind, Option.pure_def, Option.bind_assoc,
          r.toOption_decodeItems_cons]
        cases (field.decode v draft).toOption with
        | none => simp
        | some draft' => simp [heq]

/-- The entries of an object are taken up to the closing brace, which stays. -/
theorem run?_readMembers_texts {fields : List (List Char × List Char)} {first : Bool}
    {cs : List Char} (hcs : FieldTexts first fields cs)
    (hnames : ∀ entry ∈ fields, IsString entry.1)
    (hdefers : r.Defers depth (.object fields)) (draft : δ) (turns : Nat)
    (hturns : cs.length < turns) (rest : Input) :
    run? (r.readMembers depth turns first draft) (cs.map some ++ rest) =
      ((fields.mapM (member? (kept? depth))).bind fun entries =>
        (r.decodeMembers entries draft).toOption).map (·, some '\x7d' :: rest) := by
  induction hcs generalizing draft turns with
  | @nil first b hb =>
    obtain ⟨turns, rfl⟩ := Nat.exists_eq_add_one.mpr (Nat.zero_lt_of_lt hturns)
    have hnext := run?_nextKey_nil first hb rest
    simp [readMembers, hnext, decodeMembers, Except.toOption]
  | @cons first name body fields lead b b' more hlead hb hb' hmore ih =>
    -- The key names a field, which is read behind the colon unless it was given before.
    obtain ⟨turns, rfl⟩ := Nat.exists_eq_add_one.mpr (Nat.zero_lt_of_lt hturns)
    rw [List.forall_mem_cons] at hnames
    simp only [Record.Defers, List.forall_mem_cons] at hdefers ih
    have hnext := hnames.1.run?_nextKey hlead
      (b.map some ++ some ':' :: (b'.map some ++ (body.map some ++ (more.map some ++ rest))))
    have hrest := fun draft => ih hnames.2 hdefers.2 draft turns (by simp at hturns; omega)
    simp only [List.map_append, List.map_cons, List.append_assoc, List.cons_append] at hnext ⊢
    simp only [readMembers, run?_bind, run?_within, hnext, List.mapM_cons, member?]
    cases hname : name? name with
    | none => rfl
    | some key =>
      obtain ⟨field, hfield, hbody⟩ := hdefers.1 key hname
      have hread := (hbody draft).afterColon hb hb' (hmore.ends rest)
      have hmember : run? (r.readMember depth key draft) (b.map some ++ some ':' ::
          (b'.map some ++ (body.map some ++ (more.map some ++ rest)))) =
          if field.given draft then none
          else ((kept? depth body).bind fun v => (field.decode v draft).toOption).map
            (·, more.map some ++ rest) := by
        simp only [readMember, hfield]
        split_ifs
        · rfl
        · rw [run?_within, hread]
      simp only [Option.map_some, Option.bind_some, run?_bind, hmember]
      cases kept? depth body with
      | none => simp
      | some v =>
        simp only [Option.bind_some, Option.map_some, Option.bind_eq_bind, Option.pure_def,
          Option.bind_assoc, r.toOption_decodeMembers_cons hfield]
        split_ifs
        · simp
        · cases (field.decode v draft).toOption with
          | none => simp
          | some draft' => simp [hrest]

/-- An array is closed if no item is left. -/
theorem run?_closeList_texts {texts : List (List Char)} {first : Bool} {cs : List Char}
    (h : ItemTexts first texts cs) (hwritten : ∀ text ∈ texts, ∃ outline, Written outline text)
    (rest : Input) :
    run? closeList (cs.map some ++ rest) = if texts = [] then some ((), rest) else none := by
  cases h with
  | nil hb => simpa using run?_closeList hb rest
  | @cons _ text texts lead more hlead hmore =>
    obtain ⟨outline, htext⟩ := hwritten text (by simp)
    obtain ⟨c, body, rfl, -, hblank, hclose, hcomma⟩ := htext.opens
    simpa using run?_closeList_lead hlead hblank hclose hcomma
      (body.map some ++ (more.map some ++ rest))

theorem toOption_decode_array (vs : List Value) :
    (r.decode (.array vs)).toOption =
      ((r.decodeItems 0 r.fields vs r.blank).toOption.bind fun draft =>
        (r.build draft).toOption).bind fun x =>
          if r.fields.length < vs.length then none else some x := by
  simp only [decode, toOption_bind, Option.bind_assoc]
  congr 1
  funext draft
  congr 1
  funext x
  split_ifs <;> rfl

/-- The text of a scalar is no record. -/
theorem defers_scalar {cs : List Char} (h : Written .scalar cs) : r.shape.Defers depth cs := by
  change Makes (r.read depth) cs ((kept? depth cs).bind fun v => (r.decode v).toOption)
  refine h.makes_of_deferrable @fun b rest hb => ?_
  obtain ⟨c, body, rfl, ⟨hbracket, hbrace⟩, hblank, -, -⟩ := h.opens
  have hshown : run? blanks (b.map some ++ ((c :: body).map some ++ rest)) =
      some ((some c :: (body.map some ++ rest)).head?, some c :: (body.map some ++ rest)) := by
    rw [run?_blanks_append hb]
    exact run?_blanks_cons hblank _
  apply deferrable_of_none
  · have hbracket' : some (some c) ≠ some (some '[') := by simpa using hbracket
    have hbrace' : some (some c) ≠ some (some '\x7b') := by simpa using hbrace
    unfold Record.read
    rw [run?_bind, hshown, Option.bind_some]
    simp
  · -- What is kept of a scalar is neither an array nor an object, and no record is decoded from it.
    intro v rest hv
    obtain ⟨c', hc, hopens⟩ := run?_value_opens hshown hv
    obtain rfl : c = c' := by simpa using hc
    cases v with
    | array => exact absurd hopens hbracket
    | object => exact absurd hopens hbrace
    | _ => rfl

/-- An array is a record of its items. -/
theorem defers_array {items : List (List Char)} {cs : List Char} (hcs : ItemTexts true items cs)
    (hwritten : ∀ item ∈ items, ∃ outline, Written outline item)
    (hdefers : r.Defers depth (.array items)) : r.shape.Defers (depth + 1) ('[' :: cs) := by
  have hitems : ∀ item ∈ items, Makes (value depth) item (kept? depth item) := by
    intro item hitem
    obtain ⟨outline, h⟩ := hwritten item hitem
    exact h.makes depth
  have hkept := (hcs.makes hwritten hitems).kept?_eq
  rw [Shape.Defers, hkept]
  refine makes_cons (by decide) @fun input rest hshown _ => ?_
  obtain ⟨first, more, hmore, hread⟩ := r.run?_readItems_texts hcs hwritten hdefers 0 rfl rest
  have hclose := run?_closeList_texts hmore
    (fun text h => hwritten text (List.mem_of_mem_drop h)) rest
  have hrun : run? (r.shape.read (depth + 1)) input =
      (run? (r.readItems depth 0 r.fields r.blank) (cs.map some ++ rest)).bind fun s =>
        (r.build s.1).toOption.bind fun x => (run? closeList s.2).map fun t => (x, t.2) := by
    simp only [shape, Record.read, run?_bind, hshown, Option.bind_some]
    simp [Option.map_eq_bind, Option.bind_assoc]
  have hdecode : ∀ vs, (r.shape.decode (.array vs)).toOption = _ := r.toOption_decode_array
  simp only [hrun, hread, Option.bind_map, Function.comp_def, hdecode]
  obtain hlong | hfits := Nat.lt_or_ge r.fields.length items.length
  · -- An item is left over: the array is not closed, and what is kept is too long.
    have hleft : items.drop r.fields.length ≠ [] := by simpa using hlong
    rw [if_neg hleft] at hclose
    cases hvs : items.mapM (kept? depth) with
    | none => simp [hclose]
    | some vs =>
      have hlength : r.fields.length < vs.length := by rwa [length_of_mapM hvs]
      simp [hclose, hlength]
  · -- All items are taken.
    have hnil : items.drop r.fields.length = [] := List.drop_eq_nil_of_le hfits
    rw [if_pos hnil] at hclose
    rw [List.take_of_length_le hfits]
    cases hvs : items.mapM (kept? depth) with
    | none => rfl
    | some vs =>
      have hlength : ¬ r.fields.length < vs.length := by
        rw [length_of_mapM hvs]
        exact Nat.not_lt.mpr hfits
      simp [hclose, hlength, Option.map_eq_bind, Option.bind_assoc]

/-- An object is a record of its fields. -/
theorem defers_object {fields : List (List Char × List Char)} {cs : List Char}
    (hcs : FieldTexts true fields cs) (hnames : ∀ field ∈ fields, IsString field.1)
    (hwritten : ∀ field ∈ fields, ∃ outline, Written outline field.2)
    (hdefers : r.Defers depth (.object fields)) : r.shape.Defers (depth + 1) ('\x7b' :: cs) := by
  have hvalues : ∀ field ∈ fields, Makes (value depth) field.2 (kept? depth field.2) := by
    intro field hfield
    obtain ⟨outline, h⟩ := hwritten field hfield
    exact h.makes depth
  have hkept := (hcs.makes hnames hvalues).kept?_eq
  rw [Shape.Defers, hkept]
  refine makes_cons (by decide) @fun input rest hshown _ => ?_
  have hread := r.run?_readMembers_texts hcs hnames hdefers r.blank
    ((cs.map some ++ rest).length + 1) (Nat.lt_succ_of_le (by simp)) rest
  have hclose := run?_closeObject blanks_nil rest
  have hrun : run? (r.shape.read (depth + 1)) input =
      (run? (r.readMembers depth ((cs.map some ++ rest).length + 1) true r.blank)
        (cs.map some ++ rest)).bind fun s =>
        (r.build s.1).toOption.bind fun x => (run? closeObject s.2).map fun t => (x, t.2) := by
    simp only [shape, Record.read, run?_bind, hshown, Option.bind_some]
    simp [Option.map_eq_bind, Option.bind_assoc]
  have hdecode : ∀ entries, (r.shape.decode (.object entries)).toOption =
      (r.decodeMembers entries r.blank).toOption.bind fun draft => (r.build draft).toOption :=
    fun entries => toOption_bind _ _
  simp only [List.map_nil, List.nil_append] at hclose
  simp only [hrun, hread, Option.bind_map, Function.comp_def, hdecode, hclose, Option.map_some]
  cases fields.mapM (member? (kept? depth)) with
  | none => rfl
  | some entries => simp [Option.map_eq_bind, Option.bind_assoc]

/-- What is read of the text of a record is what is decoded from the value that is kept of it. -/
theorem defers {outline : Outline} {cs : List Char} (h : Written outline cs)
    (hdefers : r.Defers depth outline) : r.shape.Defers (depth + 1) cs := by
  cases outline with
  | scalar => exact r.defers_scalar h
  | array items =>
    cases h with
    | array hitems hcs => exact r.defers_array hcs (fun item h => ⟨_, hitems item h⟩) hdefers
  | object fields =>
    cases h with
    | object hnames hvalues hcs =>
      exact r.defers_object hcs hnames (fun field h => ⟨_, hvalues field h⟩) hdefers

end Record

/-! ### Tagged values -/

/-- A text is read if the reader takes it as a whole. -/
theorem toOption_parseWith_of_run? {reader : Reader α} {text : String} {cs : List Char}
    {x? : Option α} (hcs : text.toList = cs)
    (h : run? reader (cs.map some) = x?.map (·, [])) :
    (parseWith reader text).toOption = x? := by
  rw [toOption_parseWith, Text.symbols, hcs, run?_seqLeft, h]
  cases x? <;> simp [finish]

namespace Tagged

variable (t : Tagged κ α)

section Object

variable {first : Bool} {lead name b : List Char} {key word : String} {part : Part}

theorem run?_nextPart_key (hlead : Lead first lead) (hname : Quoted key name)
    (hpart : t.part? key = some part) (turns : Nat) (rest : Input) :
    run? (t.nextPart (turns + 1) first) (lead.map some ++ (name.map some ++ rest)) =
      some (some part, rest) := by
  simp [nextPart, run?_nextKey_cons hlead hname, hpart]

theorem run?_second_key (hname : Quoted key name) (hpart : t.part? key = some part) (hb : Blanks b)
    (rest : Input) :
    run? (t.second part) (b.map some ++ some ',' :: (name.map some ++ rest)) = some ((), rest) := by
  have hnext := fun turns => t.run?_nextPart_key (.next hb blanks_nil) hname hpart turns rest
  simp only [List.map_append, List.map_cons, List.map_nil, List.append_assoc, List.cons_append,
    List.nil_append] at hnext
  simp [second, hnext]

theorem run?_noMore_brace (hb : Blanks b) (rest : Input) :
    run? t.noMore (b.map some ++ some '\x7d' :: rest) = some ((), some '\x7d' :: rest) := by
  have hnext := run?_nextKey_nil false hb rest
  simp [noMore, nextPart, hnext]

/-- The tag is read as what its word stands for. -/
theorem run?_readTag_word (hname : Quoted word name) {k : κ} (hword : t.choice.find? word = some k)
    {c : Char} (hc : c ∈ [',', ':', ']', '\x7d']) (depth : Nat) (rest : Input) :
    run? (t.readTag depth) (some ':' :: (name.map some ++ some c :: rest)) =
      some (k, some c :: rest) := by
  have hread := (interprets_choice t.choice depth).afterColon blanks_nil blanks_nil (.string hname)
    (blanks_nil.ends hc rest)
  simpa [readTag, Tree.choice?, hword] using hread

end Object

/-! ### Three forms -/

/-- A string between its marks, without escapes. -/
def quote (text : String) : List Char := '"' :: (text.toList ++ ['"'])

/-- An object with the tag in front. -/
def tagFirst (word : String) (content : List Char) : List Char :=
  '\x7b' :: (quote t.tagKey ++ ':' :: (quote word ++ ',' ::
    (quote t.contentKey ++ ':' :: (content ++ ['\x7d']))))

/-- An object with the content in front. -/
def contentFirst (word : String) (content : List Char) : List Char :=
  '\x7b' :: (quote t.contentKey ++ ':' :: (content ++ ',' ::
    (quote t.tagKey ++ ':' :: (quote word ++ ['\x7d']))))

/-- An array of the tag and the content. -/
def pair (word : String) (content : List Char) : List Char :=
  '[' :: (quote word ++ ',' :: (content ++ [']']))

/-- The keys are two and need no escapes, and neither does the word for a kind. -/
structure IsPlain (word : String) (k : κ) : Prop where
  tagKey : Quoted t.tagKey (quote t.tagKey)
  contentKey : Quoted t.contentKey (quote t.contentKey)
  keys : t.contentKey ≠ t.tagKey
  quoted : Quoted word (quote word)
  find? : t.choice.find? word = some k

section Forms

variable {t} {depth : Nat} {k : κ} {word : String} {b content b' : List Char} {x? : Option α}

theorem part?_tagKey : t.part? t.tagKey = some .tag := by simp [part?]

theorem IsPlain.part?_contentKey (h : t.IsPlain word k) : t.part? t.contentKey = some .content := by
  simp [part?, h.keys]

/-- The tag comes first: the content is read as it stands. -/
theorem IsPlain.run?_tagFirst (h : t.IsPlain word k) (hb : Blanks b) (hb' : Blanks b')
    (hcontent : Makes ((t.shape k).read depth) content x?) :
    run? (t.read (depth + 1)) ((t.tagFirst word (b ++ (content ++ b'))).map some) =
      x?.map (·, []) := by
  have hbrace := run?_blanks_cons (c := '\x7b') (by decide)
  have hkey := fun turns rest =>
    t.run?_nextPart_key (.first blanks_nil) h.tagKey part?_tagKey turns rest
  have htag := fun rest => t.run?_readTag_word h.quoted h.find? (c := ',') (by decide) depth rest
  have hsecond := fun rest => t.run?_second_key h.contentKey h.part?_contentKey blanks_nil rest
  have hread := hcontent.afterColon blanks_nil hb (hb'.ends (c := '\x7d') (by decide) [])
  have hend := t.run?_noMore_brace hb' []
  have hclose := run?_closeObject blanks_nil []
  simp only [List.map_nil, List.nil_append] at hkey hsecond hread hclose
  rw [run?_seqRight] at hread
  simp only [tagFirst, List.map_cons, List.map_append, List.map_nil, List.append_assoc]
  simp only [Tagged.read, run?_bind, hbrace, Option.bind_some, run?_advance, List.drop_one,
    List.tail_cons, run?_seqLeft, readObject, run?_get, hkey, htag, hsecond, run?_seqRight, hread]
  cases x? with
  | none => rfl
  | some x => simp [hend, hclose]

/-- The content comes first: it is kept, and decoded once the tag is known. -/
theorem IsPlain.run?_contentFirst (h : t.IsPlain word k) (hb : Blanks b) (hb' : Blanks b')
    {v? : Option Value} (hcontent : Makes (value depth) content v?) :
    run? (t.read (depth + 1)) ((t.contentFirst word (b ++ (content ++ b'))).map some) =
      (v?.bind fun v => ((t.shape k).decode v).toOption).map (·, []) := by
  have hbrace := run?_blanks_cons (c := '\x7b') (by decide)
  have hkey := fun turns rest =>
    t.run?_nextPart_key (.first blanks_nil) h.contentKey h.part?_contentKey turns rest
  have hsecond := fun rest => t.run?_second_key h.tagKey part?_tagKey hb' rest
  have hread := fun rest => hcontent.afterColon blanks_nil hb (hb'.ends (c := ',') (by decide) rest)
  have htag := t.run?_readTag_word h.quoted h.find? (c := '\x7d') (by decide) depth []
  have hend := t.run?_noMore_brace blanks_nil []
  have hclose := run?_closeObject blanks_nil []
  simp only [List.map_nil, List.nil_append, run?_seqRight] at hkey hread hend hclose
  simp only [contentFirst, List.map_cons, List.map_append, List.map_nil, List.append_assoc]
  simp only [Tagged.read, run?_bind, hbrace, Option.bind_some, run?_advance, List.drop_one,
    List.tail_cons, run?_seqLeft, readObject, run?_get, hkey, run?_seqRight, hread]
  cases v? with
  | none => rfl
  | some v =>
    simp only [Option.map_some, Option.bind_some, hsecond, htag, run?_liftM]
    cases ((t.shape k).decode v).toOption with
    | none => rfl
    | some x => simp [hend, hclose]

/-- An array: the content is read as it stands. -/
theorem IsPlain.run?_pair (h : t.IsPlain word k) (hb : Blanks b) (hb' : Blanks b')
    {c : Char} (hblank : c ∉ [' ', '\n', '\t', '\r']) (hbracket : c ≠ ']')
    (hcontent : Makes ((t.shape k).read depth) (c :: content) x?) :
    run? (t.read (depth + 1)) ((pair word (b ++ (c :: content ++ b'))).map some) =
      x?.map (·, []) := by
  have hopen := run?_blanks_cons (c := '[') (by decide)
  have hfirst := fun rest => run?_nextItem_cons (.first blanks_nil) (.string h.quoted) rest
  have hword := fun rest => interprets_identifier blanks_nil (.string h.quoted)
    (blanks_nil.ends (c := ',') (by decide) rest)
  have hfind : (t.choice.find word).toOption = some k := by rw [t.choice.toOption_find, h.find?]
  have hsecond := fun rest => run?_nextItem_lead (.next blanks_nil hb) hblank hbracket rest
  have hread := hcontent blanks_nil (hb'.ends (c := ']') (by decide) [])
  have hclose := run?_closeList hb' []
  simp only [List.map_nil, List.nil_append, List.map_cons, List.cons_append]
    at hfirst hword hsecond hread
  simp only [pair, List.map_cons, List.map_append, List.map_nil, List.append_assoc,
    List.cons_append]
  simp only [Tagged.read, run?_bind, hopen, Option.bind_some, run?_advance, List.drop_one,
    List.tail_cons, run?_seqLeft, readArray, hfirst, if_true, hword, Tree.text?, Option.map_some,
    run?_liftM, hfind, hsecond, hread]
  cases x? with
  | none => rfl
  | some x => simp [hclose]

/-- **Three forms.** If what is read of a content is what is decoded from the value that is kept of
it, then it makes no difference in which form a tagged value is written. -/
theorem IsPlain.run?_forms (h : t.IsPlain word k) (hb : Blanks b) (hb' : Blanks b')
    {outline : Outline} (hwritten : Written outline content)
    (hdefers : (t.shape k).Defers depth content) :
    ∃ result : Option α, ∀ form ∈ [t.tagFirst word, t.contentFirst word, pair word],
      run? (t.read (depth + 1)) ((form (b ++ (content ++ b'))).map some) = result.map (·, []) := by
  refine ⟨(kept? depth content).bind fun v => ((t.shape k).decode v).toOption, ?_⟩
  simp only [List.mem_cons, List.not_mem_nil, or_false, forall_eq_or_imp, forall_eq]
  refine ⟨h.run?_tagFirst hb hb' hdefers, h.run?_contentFirst hb hb' (hwritten.makes depth), ?_⟩
  obtain ⟨c, body, rfl, -, hblank, hbracket, -⟩ := hwritten.opens
  exact h.run?_pair hb hb' hblank hbracket hdefers

end Forms

end Tagged

end RoomRelay.Json
