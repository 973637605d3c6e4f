import Mathlib.Data.List.Pairwise
import Mathlib.Data.List.Perm.Basic
import RoomRelay.Json.Tagged
import RoomRelay.Proofs.Json.Reading

/-!
# Reading records and tagged values

A record is collected field by field into a draft. What becomes of the draft is described by the
*slots* of the record: for each field the keys that name it, whether a draft has it, and what an
entry puts into a draft. The entries may be trees, when a record is read from a text, or values,
when it is decoded from a value that was read before. Either way the order of the entries is of no
account as long as the slots do not interfere, and a slot takes one entry at most.

## Main definitions

* `Slot`, `Slot.of`, `Slot.Apart` — slots of a draft, and two that do not interfere
* `collect`, `fill` — the draft after the entries of an object or the items of an array
* `Tagged.relevant` — the entries of an object that matter to a tagged value

## Main results

* `collect_perm` — the order of entries is of no account
* `collect_eq_none_of_twice` — a slot that is named twice spoils the whole
* `Record.interprets_read`, `Record.toOption_decode_object` — records, read and decoded
* `Tagged.toOption_parse_object` — tagged values, with their parts in either order
-/

namespace RoomRelay.Json

variable {α δ τ : Type}

/-! ### Slots -/

/-- What a draft `δ` can take from an entry of type `τ`. -/
@[ext] structure Slot (δ τ : Type) where
  /-- The keys that name the slot. -/
  isNamed : String → Bool
  /-- Whether a draft has the slot filled. -/
  given : δ → Bool
  /-- Puts an entry into a draft. -/
  put : τ → δ → Option δ

namespace Slot

/-- The slot whose place in a draft is given by `get` and `set`, for entries with a meaning. -/
def of {β : Type} (keys : List String) (meaning : τ → Option β) (get : δ → Option β)
    (set : β → δ → δ) : Slot δ τ where
  isNamed key := key ∈ keys
  given draft := (get draft).isSome
  put x draft := (meaning x).map (set · draft)

/-- What is put into a slot can be seen there. -/
def Keeps (p : Slot δ τ) : Prop := ∀ x draft draft', p.put x draft = some draft' →
  p.given draft' = true

/-- Two slots share no key, and what is put into one of them is of no account to the other. -/
structure Apart (p q : Slot δ τ) : Prop where
  keys : ∀ key, p.isNamed key = true → q.isNamed key = false
  given_left : ∀ x draft draft', q.put x draft = some draft' → p.given draft' = p.given draft
  given_right : ∀ x draft draft', p.put x draft = some draft' → q.given draft' = q.given draft
  comm : ∀ x y draft, (p.put x draft).bind (q.put y) = (q.put y draft).bind (p.put x)

theorem Apart.symm {p q : Slot δ τ} (h : p.Apart q) : q.Apart p where
  keys key hq := by
    by_contra hp
    exact absurd (h.keys key (by simpa using hp)) (by simp [hq])
  given_left := h.given_right
  given_right := h.given_left
  comm x y draft := (h.comm y x draft).symm

instance : Std.Symm (@Slot.Apart δ τ) := ⟨fun _ _ h => h.symm⟩

/-- Two slots apart are filled one after the other if neither is filled before. -/
theorem Apart.put_put {p q : Slot δ τ} (h : p.Apart q) (x y : τ) (draft : δ)
    (next : δ → Option δ) :
    (if p.given draft then none else (p.put x draft).bind fun draft' =>
      if q.given draft' then none else (q.put y draft').bind next) =
    if p.given draft || q.given draft then none
    else ((p.put x draft).bind (q.put y)).bind next := by
  cases hput : p.put x draft with
  | none => simp
  | some draft' =>
    have hgiven := h.given_right x draft draft' hput
    cases hp : p.given draft <;> simp [hgiven]

theorem of_keeps {β : Type} {keys : List String} {meaning : τ → Option β} {get : δ → Option β}
    {set : β → δ → δ} (h : ∀ x draft, get (set x draft) = some x) :
    (of keys meaning get set).Keeps := by
  intro x draft draft' hput
  obtain ⟨y, -, rfl⟩ := Option.map_eq_some_iff.mp hput
  simp [of, h]

theorem of_apart {β γ : Type} {keys keys' : List String} {meaning : τ → Option β}
    {meaning' : τ → Option γ} {get : δ → Option β} {get' : δ → Option γ} {set : β → δ → δ}
    {set' : γ → δ → δ} (hkeys : ∀ key ∈ keys, key ∉ keys')
    (hget : ∀ y draft, get (set' y draft) = get draft)
    (hget' : ∀ x draft, get' (set x draft) = get' draft)
    (hset : ∀ x y draft, set' y (set x draft) = set x (set' y draft)) :
    (of keys meaning get set).Apart (of keys' meaning' get' set') where
  keys key hkey := by simpa [of] using hkeys key (by simpa [of] using hkey)
  given_left x draft draft' hput := by
    obtain ⟨y, -, rfl⟩ := Option.map_eq_some_iff.mp hput
    simp [of, hget]
  given_right x draft draft' hput := by
    obtain ⟨y, -, rfl⟩ := Option.map_eq_some_iff.mp hput
    simp [of, hget']
  comm x y draft := by
    simp only [of]
    cases meaning x <;> cases meaning' y <;> simp [hset]

end Slot

/-- Puts the entries of an object into a draft in the order in which they stand; entries without a
slot are left out. -/
def collect (slots : List (Slot δ τ)) : List (String × τ) → δ → Option δ
  | [], draft => some draft
  | (key, x) :: entries, draft =>
    match slots.find? (·.isNamed key) with
    | none => collect slots entries draft
    | some slot =>
      if slot.given draft then none else (slot.put x draft).bind (collect slots entries)

/-- No two slots interfere with each other, and each keeps what is put into it. -/
structure Independent (slots : List (Slot δ τ)) : Prop where
  keeps : ∀ slot ∈ slots, slot.Keeps
  apart : slots.Pairwise Slot.Apart

section Collect

variable {slots : List (Slot δ τ)} (hslots : Independent slots)
include hslots

theorem Independent.apart_of_ne {p q : Slot δ τ} (hp : p ∈ slots) (hq : q ∈ slots) (hne : p ≠ q) :
    p.Apart q :=
  hslots.apart.forall hp hq hne

/-- A slot that is named once more when it is filled spoils the whole. -/
theorem collect_eq_none_of_given {slot : Slot δ τ} (hslot : slot ∈ slots)
    (entries : List (String × τ)) (hnamed : ∃ entry ∈ entries, slot.isNamed entry.1 = true)
    (draft : δ) (hgiven : slot.given draft = true) : collect slots entries draft = none := by
  induction entries generalizing draft with
  | nil => simp at hnamed
  | cons entry entries ih =>
    obtain ⟨key, x⟩ := entry
    rw [collect]
    cases hp : slots.find? (·.isNamed key) with
    | none =>
      have hkey : slot.isNamed key = false := by simpa using List.find?_eq_none.mp hp slot hslot
      simp only [List.mem_cons, exists_eq_or_imp, hkey, Bool.false_eq_true, false_or] at hnamed
      exact ih hnamed draft hgiven
    | some p =>
      have hpmem := List.mem_of_find?_eq_some hp
      have hpnamed : p.isNamed key = true := by simpa using List.find?_some hp
      by_cases heq : p = slot
      · simp [heq, hgiven]
      · have hapart := hslots.apart_of_ne hpmem hslot heq
        simp only [List.mem_cons, exists_eq_or_imp, hapart.keys key hpnamed, Bool.false_eq_true,
          false_or] at hnamed
        cases hput : p.put x draft with
        | none => simp [hput]
        | some draft' =>
          have hgiven' := hapart.given_right x draft draft' hput
          simp [hput, ih hnamed draft' (hgiven'.trans hgiven)]

/-- A slot that is named twice spoils the whole. -/
theorem collect_eq_none_of_twice {slot : Slot δ τ} (hslot : slot ∈ slots)
    (entries : List (String × τ)) (htwice : 2 ≤ entries.countP fun entry => slot.isNamed entry.1)
    (draft : δ) : collect slots entries draft = none := by
  induction entries generalizing draft with
  | nil => simp at htwice
  | cons entry entries ih =>
    obtain ⟨key, x⟩ := entry
    rw [collect]
    cases hp : slots.find? (·.isNamed key) with
    | none =>
      have hkey : slot.isNamed key = false := by simpa using List.find?_eq_none.mp hp slot hslot
      exact ih (by simpa [List.countP_cons, hkey] using htwice) draft
    | some p =>
      have hpmem := List.mem_of_find?_eq_some hp
      have hpnamed : p.isNamed key = true := by simpa using List.find?_some hp
      cases hput : p.put x draft with
      | none => simp [hput]
      | some draft' =>
        by_cases heq : p = slot
        · subst heq
          have hnamed : ∃ entry ∈ entries, p.isNamed entry.1 = true := by
            apply List.countP_pos_iff.mp
            simp only [List.countP_cons, hpnamed, if_true] at htwice
            omega
          have hgiven := hslots.keeps p hpmem x draft draft' hput
          simp [hput, collect_eq_none_of_given hslots hpmem entries hnamed draft' hgiven]
        · have hkey := (hslots.apart_of_ne hpmem hslot heq).keys key hpnamed
          simp [hput, ih (by simpa [List.countP_cons, hkey] using htwice) draft']

/-- Two entries next to each other may change places. -/
theorem collect_swap (first second : String × τ) (entries : List (String × τ)) (draft : δ) :
    collect slots (first :: second :: entries) draft =
      collect slots (second :: first :: entries) draft := by
  obtain ⟨key, x⟩ := first
  obtain ⟨key', y⟩ := second
  cases hp : slots.find? (·.isNamed key) with
  | none => simp [collect, hp]
  | some p =>
    cases hq : slots.find? (·.isNamed key') with
    | none => simp [collect, hp, hq]
    | some q =>
      have hpmem := List.mem_of_find?_eq_some hp
      have hqmem := List.mem_of_find?_eq_some hq
      have hpnamed : p.isNamed key = true := by simpa using List.find?_some hp
      have hqnamed : q.isNamed key' = true := by simpa using List.find?_some hq
      by_cases heq : p = q
      · -- Both name one slot: neither order is accepted.
        subst heq
        rw [collect_eq_none_of_twice hslots hpmem, collect_eq_none_of_twice hslots hpmem] <;>
          simp [hpnamed, hqnamed]
      · have hapart := hslots.apart_of_ne hpmem hqmem heq
        simp only [collect, hp, hq]
        rw [hapart.put_put, hapart.symm.put_put, hapart.comm, Bool.or_comm]

/-- The order of entries is of no account. -/
theorem collect_perm {entries entries' : List (String × τ)} (h : entries.Perm entries')
    (draft : δ) : collect slots entries draft = collect slots entries' draft := by
  induction h generalizing draft with
  | nil => rfl
  | cons entry _ ih =>
    obtain ⟨key, x⟩ := entry
    simp only [collect, funext ih]
  | swap second first entries => exact collect_swap hslots first second entries draft
  | trans _ _ ih₁ ih₂ => exact (ih₁ draft).trans (ih₂ draft)

end Collect

/-! ### Records -/

/-- Puts the items of an array into a draft, one for each slot; `required` says which slots must not
be left over. -/
def fill : List (Bool × Slot δ τ) → List τ → δ → Option δ
  | [], [], draft => some draft
  | [], _ :: _, _ => none
  | (_, slot) :: slots, x :: items, draft => (slot.put x draft).bind (fill slots items)
  | (required, _) :: slots, [], draft => if required then none else fill slots [] draft

/-- A slot says what reading a field makes of an entry. -/
structure Field.Reads (field : Field δ) (depth : Nat) (slot : Slot δ Tree) : Prop where
  isNamed : ∀ key, field.isNamed key = slot.isNamed key
  given : ∀ draft, field.given draft = slot.given draft
  read : ∀ draft, Interprets (field.read depth draft) fun tree => slot.put tree draft

theorem Field.reads_of {β : Type} (name : String) (aliases : List String) (required : Bool)
    {shape : Shape β} {depth : Nat} {meaning : Tree → Option β}
    (h : Interprets (shape.read depth) meaning) (get : δ → Option β) (set : β → δ → δ) :
    (Field.of name aliases required shape get set).Reads depth
      (Slot.of (name :: aliases) meaning get set) where
  isNamed key := by simp [Field.isNamed, Field.of, Slot.of]
  given _ := rfl
  read draft := h.bind_pure (set · draft)

/-- The slot of a field for values that were read before. -/
def Field.decoding (field : Field δ) : Slot δ Value where
  isNamed := field.isNamed
  given := field.given
  put v draft := (field.decode v draft).toOption

theorem Field.decoding_of {β : Type} (name : String) (aliases : List String) (required : Bool)
    (shape : Shape β) (get : δ → Option β) (set : β → δ → δ) :
    (Field.of name aliases required shape get set).decoding =
      Slot.of (name :: aliases) (fun v => (shape.decode v).toOption) get set := by
  ext v draft
  · simp [Field.decoding, Field.of, Slot.of, Field.isNamed]
  · rfl
  · simp only [Field.decoding, Field.of, Slot.of]
    cases shape.decode v <;> rfl

/-- Where each field goes with a slot of the same keys, a key names a field and its slot, or
neither. -/
theorem find?_isNamed {related : Field δ → Slot δ τ → Prop} {key : String}
    (hnamed : ∀ field slot, related field slot → field.isNamed key = slot.isNamed key)
    {fields : List (Field δ)} {slots : List (Slot δ τ)} (h : List.Forall₂ related fields slots) :
    (fields.find? (·.isNamed key) = none ∧ slots.find? (·.isNamed key) = none) ∨
      ∃ field slot, fields.find? (·.isNamed key) = some field ∧
        slots.find? (·.isNamed key) = some slot ∧ related field slot := by
  induction h with
  | nil => exact .inl ⟨rfl, rfl⟩
  | @cons field slot _ _ hfield _ ih =>
    simp only [List.find?_cons, hnamed field slot hfield]
    split
    · exact .inr ⟨field, slot, rfl, rfl, hfield⟩
    · exact ih

/-- The slots say what reading the fields of a record makes of its entries. -/
def Record.Reads (r : Record δ α) (depth : Nat) (slots : List (Slot δ Tree)) : Prop :=
  List.Forall₂ (fun field slot => field.Reads depth slot) r.fields slots

namespace Record

variable {r : Record δ α} {depth : Nat} {slots : List (Slot δ Tree)}

/-- A key names a field and its slot, or neither. -/
theorem Reads.find? (h : r.Reads depth slots) (key : String) :
    (r.field? key = none ∧ slots.find? (·.isNamed key) = none) ∨
      ∃ field slot, r.field? key = some field ∧ slots.find? (·.isNamed key) = some slot ∧
        field.Reads depth slot :=
  find?_isNamed (fun _ _ hfield => hfield.isNamed key) h

/-- The entries of an object are collected up to the closing brace, which stays. -/
theorem run?_readMembers (h : r.Reads depth slots) {first : Bool} {entries : List (String × Tree)}
    {cs : List Char} (hcs : Members first entries cs) (draft : δ) (turns : Nat)
    (hturns : cs.length < turns) (rest : Input) :
    run? (r.readMembers depth turns first draft) (cs.map some ++ rest) =
      (collect slots entries draft).map (·, some '\x7d' :: rest) := by
  induction entries generalizing first cs draft turns with
  | nil =>
    obtain ⟨turns, rfl⟩ := Nat.exists_eq_add_one.mpr (Nat.zero_lt_of_lt hturns)
    cases hcs with
    | nil hb =>
      have hnext := run?_nextKey_nil first hb rest
      simp [readMembers, hnext, collect]
  | cons entry entries ih =>
    obtain ⟨turns, rfl⟩ := Nat.exists_eq_add_one.mpr (Nat.zero_lt_of_lt hturns)
    cases hcs with
    | @cons _ key tree _ lead name b b' cs more hlead hname hb hb' hcs hmore =>
      have hnext := run?_nextKey_cons hlead hname
        (b.map some ++ some ':' :: (b'.map some ++ (cs.map some ++ (more.map some ++ rest))))
      have hrest := fun draft => ih hmore draft turns (by simp at hturns; omega)
      simp only [List.map_append, List.map_cons, List.append_assoc, List.cons_append] at hnext ⊢
      simp only [readMembers, run?_bind, run?_within, hnext, Option.bind_some, collect, readMember]
      obtain ⟨hfield, hslot⟩ | ⟨field, slot, hfield, hslot, hreads⟩ := h.find? key
      · have hskip := interprets_skipValue.afterColon hb hb' hcs (hmore.ends rest)
        simp [hfield, hslot, hskip, hrest]
      · have hread := fun draft => (hreads.read draft).afterColon hb hb' hcs (hmore.ends rest)
        simp only [hfield, hslot, hreads.given]
        by_cases hgiven : slot.given draft = true
        · simp [hgiven]
        · simp [hgiven, hread]
          cases slot.put tree draft <;> simp [hrest]

/-- As many items are taken as there are fields; what follows them stays. -/
theorem run?_readItems {fields : List (Field δ)} {slots : List (Slot δ Tree)}
    (h : List.Forall₂ (fun field slot => field.Reads depth slot) fields slots) (index : Nat)
    {items : List Tree} {cs : List Char} (hcs : Items (index == 0) items cs) (draft : δ)
    (rest : Input) :
    ∃ first more, Items first (items.drop slots.length) more ∧
      run? (r.readItems depth index fields draft) (cs.map some ++ rest) =
        (fill ((fields.map (·.required)).zip slots) (items.take slots.length) draft).map
          (·, more.map some ++ rest) := by
  induction h generalizing index items cs draft with
  | nil => exact ⟨index == 0, cs, hcs, by simp [readItems, fill]⟩
  | @cons field slot fields slots hfield hfields ih =>
    cases hcs with
    | @nil _ b hb =>
      obtain ⟨first, more, hmore, heq⟩ := ih (index + 1) (.nil blanks_nil)
        draft
      have hnext := run?_nextItem_nil (index == 0) hb rest
      refine ⟨first, more, by simpa using hmore, ?_⟩
      simp only [List.map_append, List.map_cons, List.map_nil, List.append_assoc, List.cons_append,
        List.nil_append] at heq ⊢
      cases hrequired : field.required with
      | true => simp [readItems, hnext, hrequired, fill]
      | false => simpa [readItems, hnext, hrequired, fill] using heq
    | @cons _ item items lead cs more hlead hcs hmore =>
      have hnext := run?_nextItem_cons hlead hcs (more.map some ++ rest)
      have hread := hfield.read draft blanks_nil hcs (hmore.ends rest)
      simp only [List.map_append, List.append_assoc, List.map_nil, List.nil_append] at hread ⊢
      cases hput : slot.put item draft with
      | none =>
        obtain ⟨first, more', hmore', -⟩ := ih (index + 1) hmore draft
        refine ⟨first, more', by simpa using hmore', ?_⟩
        simp [readItems, hnext, hread, hput, fill]
      | some draft' =>
        obtain ⟨first, more', hmore', heq⟩ := ih (index + 1) hmore draft'
        refine ⟨first, more', by simpa using hmore', ?_⟩
        simp [readItems, hnext, hread, hput, fill, heq]

theorem fill_of_length_le (slots : List (Bool × Slot δ Tree)) (items : List Tree) (draft : δ) :
    fill slots items draft =
      if items.drop slots.length = [] then fill slots (items.take slots.length) draft
      else none := by
  induction slots generalizing items draft with
  | nil => cases items <;> simp [fill]
  | cons slot slots ih =>
    cases items with
    | nil => simp
    | cons item items =>
      simp only [fill, List.length_cons, List.drop_succ_cons, List.take_succ_cons]
      rw [funext fun draft => ih items draft]
      split
      · rfl
      · cases slot.2.put item draft <;> rfl

/-- An array is closed if no item is left. -/
theorem run?_closeList_items {first : Bool} {items : List Tree} {cs : List Char}
    (h : Items first items cs) (rest : Input) :
    run? closeList (cs.map some ++ rest) = if items = [] then some ((), rest) else none := by
  cases h with
  | nil hb => simpa using run?_closeList hb rest
  | @cons _ item items lead cs more hlead hcs hmore =>
    obtain ⟨c, cs, rfl, hopens⟩ := hcs.opens
    obtain ⟨hblank, hclose, hcomma⟩ := hopens.not_mem
    simpa using run?_closeList_lead hlead hblank hclose hcomma
      (cs.map some ++ (more.map some ++ rest))

/-- What a record is made of. -/
def meaning? (r : Record δ α) (slots : Nat → List (Slot δ Tree)) : (depth : Nat) → Tree → Option α
  | depth + 1, .object entries =>
    (collect (slots depth) entries r.blank).bind fun draft => (r.build draft).toOption
  | depth + 1, .array items =>
    (fill ((r.fields.map (·.required)).zip (slots depth)) items r.blank).bind fun draft =>
      (r.build draft).toOption
  | _, _ => none

/-- A record is made of an object or an array, whatever it looks like as a text. -/
theorem interprets_read {slots : Nat → List (Slot δ Tree)}
    (h : ∀ depth, r.Reads depth (slots depth)) (depth : Nat) :
    Interprets (r.read depth) (r.meaning? slots depth) := by
  intro tree b cs rest hb hcs hrest
  obtain ⟨c, more, hcons, hopens⟩ := hcs.opens
  have hshown := run?_blanks_cons hopens.not_mem.1 (more.map some ++ rest)
  unfold Record.read
  rw [run?_blanks_bind_append hb, run?_bind, hcons, List.map_cons, List.cons_append, hshown,
    Option.bind_some]
  -- Only an opening brace or bracket makes the reader go on.
  cases hcs with
  | null | true | false =>
    obtain ⟨rfl, rfl⟩ := List.cons.inj hcons
    simp [meaning?]
  | number =>
    obtain ⟨-, -, -, -, -, hbracket, hbrace⟩ := hopens.of_number
    have hbracket' : some (some c) ≠ some (some '[') := by simpa using hbracket
    have hbrace' : some (some c) ≠ some (some '\x7b') := by simpa using hbrace
    simp [meaning?]
  | string =>
    obtain rfl : c = '"' := hopens
    simp [meaning?]
  | @object entries cs hmembers =>
    obtain ⟨rfl, rfl⟩ := List.cons.inj hcons
    cases depth with
    | zero => simp [meaning?]
    | succ depth =>
      have hread := run?_readMembers (h depth) hmembers r.blank (cs.length + rest.length + 1)
        (by omega) rest
      have hclose := run?_closeObject blanks_nil rest
      simp only [List.map_nil, List.nil_append] at hclose
      simp only [meaning?]
      cases hcollect : collect (slots depth) entries r.blank with
      | none => simp [hread, hcollect]
      | some draft =>
        cases hbuild : r.build draft <;>
          simp [hread, hcollect, hbuild, hclose, Except.toOption]
  | @array items cs hitems =>
    obtain ⟨rfl, rfl⟩ := List.cons.inj hcons
    cases depth with
    | zero => simp [meaning?]
    | succ depth =>
      obtain ⟨first, more, hmore, hread⟩ := run?_readItems (r := r) (h depth) 0 hitems
        r.blank rest
      have hlength : ((r.fields.map (·.required)).zip (slots depth)).length =
          (slots depth).length := by
        simp [(h depth).length_eq]
      have hclose := run?_closeList_items hmore rest
      simp only [meaning?]
      rw [fill_of_length_le, hlength]
      cases hfill : fill ((r.fields.map (·.required)).zip (slots depth))
          (items.take (slots depth).length) r.blank with
      | none => simp [hread, hfill]
      | some draft =>
        cases hbuild : r.build draft <;> by_cases hleft : items.drop (slots depth).length = [] <;>
          simp [hread, hfill, hbuild, hclose, hleft, Except.toOption]

/-- The entries of an object that was read before are collected in the same way. -/
theorem toOption_decodeMembers (r : Record δ α) (entries : List (String × Value)) (draft : δ) :
    (r.decodeMembers entries draft).toOption =
      collect (r.fields.map Field.decoding) entries draft := by
  induction entries generalizing draft with
  | nil => rfl
  | cons entry entries ih =>
    obtain ⟨key, v⟩ := entry
    have hfind : (r.fields.map Field.decoding).find? (·.isNamed key) =
        (r.field? key).map Field.decoding := List.find?_map
    simp only [decodeMembers, collect, hfind]
    cases r.field? key with
    | none => exact ih draft
    | some field =>
      simp only [Option.map_some, Field.decoding]
      cases hgiven : field.given draft with
      | true => rfl
      | false =>
        cases hdecode : field.decode v draft with
        | error fault => rfl
        | ok draft' => exact ih draft'

theorem toOption_decode_object (r : Record δ α) (entries : List (String × Value)) :
    (r.decode (.object entries)).toOption =
      (collect (r.fields.map Field.decoding) entries r.blank).bind fun draft =>
        (r.build draft).toOption := by
  rw [← toOption_decodeMembers, decode]
  cases r.decodeMembers entries r.blank <;> rfl

end Record

/-- A whole input is read if nothing but blanks follows what the reader takes. -/
theorem toOption_parseInput (reader : Reader α) (input : Input) :
    (parseInput reader input).toOption = (run? (reader <* finish) input).map (·.1) := by
  change Except.toOption (Prod.fst <$> (reader <* finish) input) = _
  unfold run?
  cases (reader <* finish) input <;> rfl

theorem toOption_parseWith (reader : Reader α) (text : String) :
    (parseWith reader text).toOption = (run? (reader <* finish) (Text.symbols text)).map (·.1) :=
  toOption_parseInput reader _

/-! ### Tagged values -/

namespace Tagged

variable {κ : Type} (t : Tagged κ α)

/-- The entries of an object that matter, in the order in which they stand. -/
def relevant (entries : List (String × Tree)) : List (Part × Tree) :=
  entries.filterMap fun entry => (t.part? entry.1).map (·, entry.2)

/-- The input stands behind a key, before the colon and the tree that belong to it; other entries
follow. -/
def AtColon (tree : Tree) (entries : List (String × Tree)) (rest input : Input) : Prop :=
  ∃ b b' body more, Blanks b ∧ Blanks b' ∧ Spells tree body ∧ Members false entries more ∧
    input = b.map some ++ some ':' :: (b'.map some ++ (body.map some ++ (more.map some ++ rest)))

/-- Behind the colon the tree is read, and the other entries remain. -/
theorem AtColon.read {tree : Tree} {entries : List (String × Tree)} {rest input : Input}
    (h : AtColon tree entries rest input) :
    ∃ more, Members false entries more ∧
      ∀ {β : Type} {item : Reader β} {meaning : Tree → Option β}, Interprets item meaning →
        run? (colon *> item) input = (meaning tree).map (·, more.map some ++ rest) := by
  obtain ⟨b, b', body, more, hb, hb', hbody, hmore, rfl⟩ := h
  exact ⟨more, hmore, fun hitem => hitem.afterColon hb hb' hbody (hmore.ends rest)⟩

/-- The next entry that matters is found, if there is one; those before it are skipped. -/
theorem run?_nextPart {first : Bool} {entries : List (String × Tree)} {cs : List Char}
    (hcs : Members first entries cs) (turns : Nat) (hturns : cs.length < turns) (rest : Input) :
    (t.relevant entries = [] ∧
      run? (t.nextPart turns first) (cs.map some ++ rest) = some (none, some '\x7d' :: rest)) ∨
    ∃ part tree entries' input, t.relevant entries = (part, tree) :: t.relevant entries' ∧
      AtColon tree entries' rest input ∧
      run? (t.nextPart turns first) (cs.map some ++ rest) = some (some part, input) := by
  induction entries generalizing first cs turns with
  | nil =>
    obtain ⟨turns, rfl⟩ := Nat.exists_eq_add_one.mpr (Nat.zero_lt_of_lt hturns)
    cases hcs with
    | nil hb =>
      have hnext := run?_nextKey_nil first hb rest
      exact .inl ⟨rfl, by simp [nextPart, hnext]⟩
  | cons entry entries ih =>
    obtain ⟨turns, rfl⟩ := Nat.exists_eq_add_one.mpr (Nat.zero_lt_of_lt hturns)
    cases hcs with
    | @cons _ key tree _ lead name b b' body more hlead hname hb hb' hbody hmore =>
      have hnext := run?_nextKey_cons hlead hname
        (b.map some ++ some ':' :: (b'.map some ++ (body.map some ++ (more.map some ++ rest))))
      simp only [List.map_append, List.map_cons, List.append_assoc, List.cons_append] at hnext ⊢
      cases hpart : t.part? key with
      | some part =>
        refine .inr ⟨part, tree, entries, _, ?_,
          ⟨b, b', body, more, hb, hb', hbody, hmore, rfl⟩, ?_⟩
        · simp [relevant, hpart]
        · simp [nextPart, hnext, hpart]
      | none =>
        have hskip := interprets_skipValue.afterColon hb hb' hbody (hmore.ends rest)
        rw [run?_seqRight, run?_colon hb, Option.bind_some] at hskip
        have hrelevant : t.relevant ((key, tree) :: entries) = t.relevant entries := by
          simp [relevant, hpart]
        have hrun : run? (t.nextPart (turns + 1) first) (lead.map some ++ (name.map some ++
            (b.map some ++ some ':' :: (b'.map some ++ (body.map some ++
              (more.map some ++ rest)))))) =
            run? (t.nextPart turns false) (more.map some ++ rest) := by
          simp [nextPart, hnext, hpart, run?_colon hb, hskip]
        rw [hrelevant, hrun]
        exact ih hmore turns (by simp at hturns; omega)

/-- The second part must be the one that is wanted. -/
theorem run?_second {entries : List (String × Tree)} {cs : List Char}
    (hcs : Members false entries cs) (wanted : Part) (rest : Input) :
    (run? (t.second wanted) (cs.map some ++ rest) = none ∧
      ∀ tree others, t.relevant entries ≠ (wanted, tree) :: others) ∨
    ∃ tree entries' input, t.relevant entries = (wanted, tree) :: t.relevant entries' ∧
      AtColon tree entries' rest input ∧
      run? (t.second wanted) (cs.map some ++ rest) = some ((), input) := by
  obtain ⟨hnil, hrun⟩ | ⟨part, tree, entries', input, hcons, hat, hrun⟩ :=
    t.run?_nextPart hcs (cs.length + rest.length + 1) (by omega) rest
  · exact .inl ⟨by simp [second, hrun], by simp [hnil]⟩
  · by_cases hpart : part = wanted
    · subst hpart
      exact .inr ⟨tree, entries', input, hcons, hat, by simp [second, hrun]⟩
    · refine .inl ⟨by simp [second, hrun, hpart], fun tree' others heq => ?_⟩
      rw [hcons] at heq
      exact hpart (Prod.mk.inj (List.cons.inj heq).1).1

/-- Nothing that matters may follow. -/
theorem run?_noMore {entries : List (String × Tree)} {cs : List Char}
    (hcs : Members false entries cs) (rest : Input) :
    run? t.noMore (cs.map some ++ rest) =
      if t.relevant entries = [] then some ((), some '\x7d' :: rest) else none := by
  obtain ⟨hnil, hrun⟩ | ⟨part, tree, entries', input, hcons, -, hrun⟩ :=
    t.run?_nextPart hcs (cs.length + rest.length + 1) (by omega) rest
  · simp [noMore, hrun, hnil]
  · simp [noMore, hrun, hcons]

/-- The tree of the only entry that is left, which must be the part that is wanted. -/
def sole? (wanted : Part) : List (Part × Tree) → Option Tree
  | [(part, tree)] => if part = wanted then some tree else none
  | _ => none

/-- What a tagged value is made of: its two parts, in either order. The content is taken as it is
meant if the tag comes first, and decoded from a kept value if not. -/
def object? (depth : Nat) (meaning : κ → Tree → Option α) : List (Part × Tree) → Option α
  | (.tag, tag) :: others =>
    (tag.choice? t.choice depth).bind fun k => (sole? .content others).bind (meaning k)
  | (.content, content) :: others =>
    (content.valueWithin? depth).bind fun v => (sole? .tag others).bind fun tag =>
      (tag.choice? t.choice depth).bind fun k => ((t.shape k).decode v).toOption
  | [] => none

/-- The second part is found where it is the only one that is left, and nothing follows it. -/
theorem second_cases {entries : List (String × Tree)} {cs : List Char}
    (hcs : Members false entries cs) (wanted : Part) (rest : Input) :
    (run? (t.second wanted) (cs.map some ++ rest) = none ∧
      sole? wanted (t.relevant entries) = none) ∨
    ∃ tree input more, run? (t.second wanted) (cs.map some ++ rest) = some ((), input) ∧
      (∀ {β : Type} {item : Reader β} {meaning : Tree → Option β}, Interprets item meaning →
        run? (colon *> item) input = (meaning tree).map (·, more)) ∧
      run? t.noMore more =
        (sole? wanted (t.relevant entries)).map (fun _ => ((), some '\x7d' :: rest)) ∧
      ∀ tree' ∈ sole? wanted (t.relevant entries), tree' = tree := by
  obtain ⟨hsecond, hother⟩ | ⟨tree, entries', input, hcons, hat, hsecond⟩ :=
    t.run?_second hcs wanted rest
  · refine .inl ⟨hsecond, ?_⟩
    unfold sole?
    split
    · next part tree hrelevant =>
      rw [if_neg]
      rintro rfl
      exact hother tree [] hrelevant
    · rfl
  · obtain ⟨more, hmore, hread⟩ := hat.read
    refine .inr ⟨tree, input, _, hsecond, hread, ?_, ?_⟩
    · rw [t.run?_noMore hmore, hcons]
      cases t.relevant entries' <;> simp [sole?]
    · rw [hcons]
      cases t.relevant entries' <;> simp [sole?]

/-- The inside of an object is read up to the closing brace. -/
theorem run?_readObject {depth : Nat} {meaning : κ → Tree → Option α}
    (h : ∀ k, Interprets ((t.shape k).read depth) (meaning k)) {entries : List (String × Tree)}
    {cs : List Char} (hcs : Members true entries cs) (rest : Input) :
    run? (t.readObject depth) (cs.map some ++ rest) =
      (t.object? depth meaning (t.relevant entries)).map (·, some '\x7d' :: rest) := by
  obtain ⟨hnil, hrun⟩ | ⟨part, tree, entries', input, hcons, hat, hrun⟩ :=
    t.run?_nextPart hcs (cs.length + rest.length + 1) (by omega) rest
  · simp [readObject, hrun, hnil, object?]
  · obtain ⟨more, hmore, hread⟩ := hat.read
    rw [hcons]
    cases part with
    | tag =>
      -- The type comes first, so the payload is read as it stands.
      have htag := hread (interprets_choice t.choice depth)
      cases hk : tree.choice? t.choice depth with
      | none => simp [readObject, readTag, hrun, htag, hk, object?]
      | some k =>
        obtain ⟨hsecond, hsole⟩ | ⟨tree', input', more', hsecond, hread', hnoMore, hsole⟩ :=
          t.second_cases hmore .content rest
        · simp [readObject, readTag, hrun, htag, hk, hsecond, hsole, object?]
        · have hcontent := hread' (h k)
          cases hone : sole? .content (t.relevant entries') with
          | none =>
            cases hx : meaning k tree' <;>
              simp [readObject, readTag, -run?_seqRight, hrun, htag, hk, hsecond, hcontent, hx,
                hnoMore, hone, object?]
          | some tree'' =>
            obtain rfl := hsole tree'' hone
            cases hx : meaning k tree'' <;>
              simp [readObject, readTag, -run?_seqRight, hrun, htag, hk, hsecond, hcontent, hx,
                hnoMore, hone, object?]
    | content =>
      -- The payload comes first: it is kept as a value, and decoded once the type is known.
      have hvalue := hread (interprets_value depth)
      cases hv : tree.valueWithin? depth with
      | none => simp [readObject, -run?_seqRight, hrun, hvalue, hv, object?]
      | some v =>
        obtain ⟨hsecond, hsole⟩ | ⟨tree', input', more', hsecond, hread', hnoMore, hsole⟩ :=
          t.second_cases hmore .tag rest
        · simp [readObject, -run?_seqRight, hrun, hvalue, hv, hsecond, hsole, object?]
        · have htag := hread' (interprets_choice t.choice depth)
          cases hone : sole? .tag (t.relevant entries') with
          | none =>
            cases hk : tree'.choice? t.choice depth with
            | none =>
              simp [readObject, readTag, -run?_seqRight, hrun, hvalue, hv, hsecond, htag, hk, hone,
                object?]
            | some k =>
              cases hx : (t.shape k).decode v <;>
                simp [readObject, readTag, -run?_seqRight, hrun, hvalue, hv, hsecond, htag, hk, hx,
                  hnoMore, hone, object?, Except.toOption]
          | some tree'' =>
            obtain rfl := hsole tree'' hone
            cases hk : tree''.choice? t.choice depth with
            | none =>
              simp [readObject, readTag, -run?_seqRight, hrun, hvalue, hv, hsecond, htag, hk, hone,
                object?]
            | some k =>
              cases hx : (t.shape k).decode v <;>
                simp [readObject, readTag, -run?_seqRight, hrun, hvalue, hv, hsecond, htag, hk, hx,
                  hnoMore, hone, object?, Except.toOption]

/-- A tagged value is read from an object, whatever it looks like as a text. -/
theorem run?_read_object {depth : Nat} {meaning : κ → Tree → Option α}
    (h : ∀ k, Interprets ((t.shape k).read depth) (meaning k)) {entries : List (String × Tree)}
    {b cs : List Char} (hb : Blanks b) (hcs : Spells (.object entries) cs) (rest : Input) :
    run? (t.read (depth + 1)) (b.map some ++ (cs.map some ++ rest)) =
      (t.object? depth meaning (t.relevant entries)).map (·, rest) := by
  cases hcs with
  | object hmembers =>
    have hbrace := run?_blanks_cons (c := '\x7b') (by decide)
    have hinside := t.run?_readObject h hmembers rest
    have hclose := run?_closeObject blanks_nil rest
    simp only [List.map_nil, List.nil_append] at hclose
    cases hobject : t.object? depth meaning (t.relevant entries) <;>
      simp [Tagged.read, run?_blanks_append hb, hbrace, hinside, hobject, hclose]

/-- A whole text that spells an object is read as the object. -/
theorem toOption_parse_object {depth : Nat} {meaning : κ → Tree → Option α}
    (h : ∀ k, Interprets ((t.shape k).read depth) (meaning k)) {entries : List (String × Tree)}
    {text : String} (htext : IsText text (.object entries)) :
    (parseWith (t.read (depth + 1)) text).toOption =
      t.object? depth meaning (t.relevant entries) := by
  obtain ⟨b, cs, b', hb, hcs, hb', heq⟩ := htext
  have hread := t.run?_read_object h hb hcs (b'.map some)
  have hfinish := run?_blanks_append hb' []
  simp only [List.append_nil, run?_blanks_nil] at hfinish
  rw [toOption_parseWith, Text.symbols, heq, List.map_append, List.map_append, run?_seqLeft, hread]
  cases t.object? depth meaning (t.relevant entries) <;> simp [finish, hfinish]

end Tagged

end RoomRelay.Json
