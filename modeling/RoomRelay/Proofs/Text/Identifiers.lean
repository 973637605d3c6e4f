import Mathlib.Algebra.GroupWithZero.Nat
import Mathlib.Data.List.Basic
import Mathlib.Tactic.Tauto
import RoomRelay.Uuid

/-!
# How identifiers are spelt

An identifier is written as its digits in groups. It is read from four forms of that, with letters
in either case: the digits alone, the groups, the groups between braces, and the groups as a
resource name. The four readers are tried one after the other, but as the forms have different
lengths, at most one of them reads anything. So an identifier is read from its spellings, and from
nothing else; and each text spells one identifier at most.

## Main definitions

* `Uuid.spellings`, `Uuid.Spells` — the forms of an identifier, and the texts that spell it

## Main results

* `Hex.digit?_eq_some_iff` — a digit is read from its character in either case
* `Uuid.parse?_eq_some_iff` — an identifier is read from its spellings
* `Uuid.parse?_toString` — an identifier is read back from its hyphenated spelling
* `Uuid.Spells.unique`, `Uuid.toString_injective` — spellings tell identifiers apart
-/

namespace RoomRelay

/-! ### Lower case -/

/-- Beyond the first 128 characters all stay as they are. -/
theorem toLower_of_le {c : Char} (h : 128 ≤ c.toNat) : c.toLower = c :=
  dif_neg fun hrange =>
    absurd (Nat.le_trans h (UInt32.le_iff_toNat_le.mp hrange.2)) (by decide)

/-- A character stays as it is, or it is a letter and becomes one. -/
theorem toLower_eq_self_or (c : Char) :
    c.toLower = c ∨ c.isAlpha = true ∧ c.toLower.isAlpha = true := by
  have htable : ∀ n < 128, (Char.ofNat n).toLower = Char.ofNat n ∨
      (Char.ofNat n).isAlpha = true ∧ (Char.ofNat n).toLower.isAlpha = true := by
    decide +kernel
  obtain hc | hc := Nat.lt_or_ge c.toNat 128
  · simpa only [Char.ofNat_toNat] using htable c.toNat hc
  · exact Or.inl (toLower_of_le hc)

/-- In lower case a character that is no letter stands for itself alone. -/
theorem toLower_eq_iff {c mark : Char} (hmark : mark.isAlpha = false) :
    c.toLower = mark ↔ c = mark := by
  obtain hself | ⟨hletter, hlower⟩ := toLower_eq_self_or c
  · rw [hself]
  · refine iff_of_false ?_ ?_
    · rintro rfl
      exact absurd (hmark.symm.trans hlower) (by simp)
    · rintro rfl
      exact absurd (hmark.symm.trans hletter) (by simp)

/-- A digit is read from its character in either case. -/
theorem Hex.digit?_eq_some_iff {c : Char} {d : Fin 16} :
    digit? c = some d ↔ c.toLower = char d := by
  have htable : ∀ n < 128, ∀ d, digit? (Char.ofNat n) = some d ↔
      (Char.ofNat n).toLower = char d := by
    decide +kernel
  have hsmall : ∀ d, (char d).toNat < 128 := by decide
  obtain hc | hc := Nat.lt_or_ge c.toNat 128
  · simpa only [Char.ofNat_toNat] using htable c.toNat hc d
  · rw [toLower_of_le hc]
    refine iff_of_false (fun h => ?_) (fun h => ?_)
    · exact Nat.not_lt.mpr hc (toNat_lt_of_digit? h)
    · exact Nat.not_lt.mpr hc (h ▸ hsmall d)

namespace Uuid

variable {id : Uuid} {cs inner : List Char} {sizes : List Nat} {text : String}

/-- The spellings of an identifier in lower case: its digits alone, in groups, in groups between
braces, and in groups as a resource name. -/
def spellings (id : Uuid) : List (List Char) :=
  [id.digits.map Hex.char, id.toChars, '\x7b' :: (id.toChars ++ ['\x7d']), urnMark ++ id.toChars]

/-- A text spells an identifier if it is one of its spellings, with letters in either case. -/
def Spells (id : Uuid) (text : String) : Prop := text.toList.map Char.toLower ∈ id.spellings

instance (id : Uuid) (text : String) : Decidable (id.Spells text) :=
  inferInstanceAs (Decidable (_ ∈ _))

/-! ### Groups -/

section Groups

variable {α : Type} {separator : α} {fold : α → α} {items : List α}

theorem mem_of_mem_grouped {x : α} (h : x ∈ grouped separator sizes items) :
    x = separator ∨ x ∈ items := by
  fun_induction grouped separator sizes items with
  | case1 | case2 => exact Or.inr h
  | case3 size sizes items _ ih =>
    rcases List.mem_append.mp h with h | h
    · exact Or.inr (List.mem_of_mem_take h)
    · rcases List.mem_cons.mp h with h | h
      · exact Or.inl h
      · exact (ih h).imp_right List.mem_of_mem_drop

variable [DecidableEq α]

/-- What is put into groups is taken out of them again. -/
theorem ungrouped?_grouped (separator : α) (nonempty : sizes ≠ [])
    (fits : items.length = sizes.sum) :
    ungrouped? separator sizes (grouped separator sizes items) = some items := by
  induction sizes generalizing items with
  | nil => exact absurd rfl nonempty
  | cons size sizes ih =>
    cases sizes with
    | nil =>
      rw [List.sum_singleton] at fits
      rw [grouped, ungrouped?, if_pos fits]
    | cons next sizes =>
      rw [List.sum_cons] at fits
      have hrest := @ih (items.drop size) (by simp) (by rw [List.length_drop]; omega)
      have hfirst : (items.take size).length = size := List.length_take_of_le (by omega)
      have hgrouped : grouped separator (size :: next :: sizes) items =
          items.take size ++ separator :: grouped separator (next :: sizes) (items.drop size) := rfl
      have hlong : ¬ (grouped separator (size :: next :: sizes) items).length < size := by
        rw [hgrouped, List.length_append, hfirst]
        omega
      rw [ungrouped?, if_neg hlong, hgrouped, List.drop_left' hfirst, List.take_left' hfirst]
      · simp [hrest]
      · simp

/-- What is taken out of groups had been put into them. -/
theorem eq_grouped_of_ungrouped? {cs : List α} (h : ungrouped? separator sizes cs = some items) :
    cs = grouped separator sizes items := by
  induction sizes generalizing cs items with
  | nil =>
    rw [ungrouped?] at h
    split at h
    · next hempty =>
      obtain rfl := Option.some.inj h
      exact hempty
    · cases h
  | cons size sizes ih =>
    cases sizes with
    | nil =>
      rw [ungrouped?] at h
      split at h
      · exact Option.some.inj h
      · cases h
    | cons next sizes =>
      rw [ungrouped?] at h
      · split at h
        · cases h
        · next hlong =>
          split at h
          · next mark rest hdrop =>
            split at h
            · next hmark =>
              subst hmark
              obtain ⟨more, hmore, rfl⟩ := Option.map_eq_some_iff.mp h
              have hfirst : (cs.take size).length = size :=
                List.length_take_of_le (Nat.not_lt.mp hlong)
              rw [grouped, List.take_left' hfirst, List.drop_left' hfirst, ← ih hmore, ← hdrop,
                List.take_append_drop]
              simp
            · cases h
          · cases h
      · simp

/-- The groups are found as well after the items have been folded, unless folding makes other items
separators. -/
theorem ungrouped?_map (hfold : ∀ x, fold x = separator ↔ x = separator) (sizes : List Nat)
    (cs : List α) :
    ungrouped? separator sizes (cs.map fold) =
      (ungrouped? separator sizes cs).map (List.map fold) := by
  induction sizes generalizing cs with
  | nil => cases cs <;> simp [ungrouped?]
  | cons size sizes ih =>
    cases sizes with
    | nil => by_cases hsize : cs.length = size <;> simp [ungrouped?, hsize]
    | cons next sizes =>
      rw [ungrouped?, ungrouped?, List.length_map]
      · split
        · rfl
        · rw [← List.map_drop]
          cases hdrop : cs.drop size with
          | nil => rfl
          | cons mark rest =>
            simp only [List.map_cons, hfold, ih]
            split
            · cases ungrouped? separator (next :: sizes) rest <;> simp [List.map_take]
            · rfl
      · simp
      · simp

end Groups

theorem mem_toChars {c : Char} (h : c ∈ id.toChars) : c = '-' ∨ ∃ d, c = Hex.char d := by
  refine (mem_of_mem_grouped h).imp_right fun h => ?_
  obtain ⟨d, -, rfl⟩ := List.mem_map.mp h
  exact ⟨d, rfl⟩

@[simp] theorem length_toChars (id : Uuid) : id.toChars.length = 36 := by
  simp [toChars, groupSizes, grouped, id.length_digits]

/-! ### The four readers -/

theorem mapM_digit?_eq_some_iff {ds : List (Fin 16)} :
    cs.mapM Hex.digit? = some ds ↔ cs.map Char.toLower = ds.map Hex.char := by
  induction cs generalizing ds with
  | nil => cases ds <;> simp
  | cons c cs ih =>
    cases ds with
    | nil => cases hc : Hex.digit? c <;> cases hcs : cs.mapM Hex.digit? <;> simp [hc, hcs]
    | cons d ds =>
      rw [List.map_cons, List.map_cons, List.cons.injEq, ← Hex.digit?_eq_some_iff, ← ih]
      cases hc : Hex.digit? c <;> cases hcs : cs.mapM Hex.digit? <;> simp [hc, hcs]

theorem ofPlain?_eq_some_iff :
    ofPlain? cs = some id ↔ cs.map Char.toLower = id.digits.map Hex.char := by
  rw [ofPlain?, ← mapM_digit?_eq_some_iff, Option.bind_eq_bind, Option.bind_eq_some_iff]
  constructor
  · -- The digits that are read are those of the identifier, as nothing else is built from them.
    rintro ⟨ds, hds, hid⟩
    unfold ofDigits? at hid
    split at hid
    · obtain rfl := Option.some.inj hid
      exact hds
    · cases hid
  · intro h
    exact ⟨id.digits, h, by simp [ofDigits?, id.length_digits]⟩

theorem ofHyphenated?_eq_some_iff :
    ofHyphenated? cs = some id ↔ cs.map Char.toLower = id.toChars := by
  -- Lower case makes no character a hyphen, so the groups are the same in either case.
  have hfold : ∀ c : Char, c.toLower = '-' ↔ c = '-' := fun _ => toLower_eq_iff rfl
  have hmap := ungrouped?_map hfold groupSizes cs
  have hungrouped : ungrouped? '-' groupSizes id.toChars = some (id.digits.map Hex.char) :=
    ungrouped?_grouped '-' (by decide) (by rw [List.length_map, id.length_digits]; rfl)
  constructor
  · intro h
    obtain ⟨plain, hplain, hid⟩ := Option.bind_eq_some_iff.mp h
    rw [hplain, Option.map_some, ofPlain?_eq_some_iff.mp hid] at hmap
    exact eq_grouped_of_ungrouped? hmap
  · intro h
    rw [h, hungrouped, eq_comm, Option.map_eq_some_iff] at hmap
    obtain ⟨plain, hplain, hid⟩ := hmap
    exact Option.bind_eq_some_iff.mpr ⟨plain, hplain, ofPlain?_eq_some_iff.mpr hid⟩

theorem unbraced?_eq_some_iff :
    unbraced? cs = some inner ↔ cs = '\x7b' :: (inner ++ ['\x7d']) := by
  unfold unbraced?
  split
  · next rest =>
    rw [List.cons.injEq, and_iff_right rfl]
    constructor
    · intro h
      split at h
      · next hlast =>
        obtain rfl := Option.some.inj h
        exact (List.dropLast_append_getLast? _ hlast).symm
      · cases h
    · rintro rfl
      simp
  · next hopen =>
    refine iff_of_false (by simp) ?_
    rintro rfl
    exact hopen _ rfl

theorem ofBraced?_eq_some_iff :
    (unbraced? cs >>= ofHyphenated?) = some id ↔
      cs.map Char.toLower = '\x7b' :: (id.toChars ++ ['\x7d']) := by
  simp only [Option.bind_eq_bind, Option.bind_eq_some_iff, unbraced?_eq_some_iff,
    ofHyphenated?_eq_some_iff]
  constructor
  · rintro ⟨inner, rfl, hinner⟩
    simp [hinner]
  · intro h
    obtain ⟨first, rest, rfl, hfirst, hrest⟩ := List.map_eq_cons_iff.mp h
    obtain ⟨inner, last, rfl, hinner, hlast⟩ := List.map_eq_append_iff.mp hrest
    obtain ⟨close, more, rfl, hclose, hmore⟩ := List.map_eq_cons_iff.mp hlast
    obtain rfl := List.map_eq_nil_iff.mp hmore
    obtain rfl := (toLower_eq_iff rfl).mp hfirst
    obtain rfl := (toLower_eq_iff rfl).mp hclose
    exact ⟨inner, rfl, hinner⟩

theorem ofUrn?_eq_some_iff :
    (afterUrn? cs >>= ofHyphenated?) = some id ↔ cs.map Char.toLower = urnMark ++ id.toChars := by
  have hcut : cs.map Char.toLower = urnMark ++ id.toChars ↔
      (cs.take urnMark.length).map Char.toLower = urnMark ∧
        (cs.drop urnMark.length).map Char.toLower = id.toChars := by
    rw [List.map_take, List.map_drop]
    constructor
    · intro h
      simp [h]
    · rintro ⟨hmark, hid⟩
      rw [← List.take_append_drop urnMark.length (cs.map Char.toLower), hmark, hid]
  rw [hcut, afterUrn?]
  split
  · next hmark => simp [hmark, ofHyphenated?_eq_some_iff]
  · next hmark => exact iff_of_false (by simp) fun h => hmark h.1

/-- A reader of spellings of one length reads nothing from a text of another length. -/
theorem eq_none_of_length {read : Option Uuid} {spelling : Uuid → List Char}
    (reads : ∀ id, read = some id ↔ cs.map Char.toLower = spelling id)
    (other : ∀ id, (spelling id).length ≠ cs.length) : read = none := by
  rw [Option.eq_none_iff_forall_ne_some]
  intro id hid
  rw [reads] at hid
  exact other id (by rw [← hid, List.length_map])

/-! ### Reading and writing -/

/-- **Spellings.** An identifier is read from its spellings and from nothing else. -/
theorem parse?_eq_some_iff : parse? text = some id ↔ id.Spells text := by
  unfold parse? Spells spellings ofChars?
  generalize text.toList = cs
  have hlength : cs.length = (cs.map Char.toLower).length := (List.length_map _).symm
  have hurn : urnMark.length = 9 := by decide
  simp only [Option.orElse_eq_orElse, Option.orElse_eq_or, Option.or_eq_some_iff, List.mem_cons,
    List.not_mem_nil, or_false, ofPlain?_eq_some_iff, ofHyphenated?_eq_some_iff,
    ofBraced?_eq_some_iff, ofUrn?_eq_some_iff]
  constructor
  · tauto
  · -- A text has the length of one form only, so the readers that come before its own fail.
    have hplain : cs.length ≠ 32 → ofPlain? cs = none := fun other =>
      eq_none_of_length (fun _ => ofPlain?_eq_some_iff) fun id => by
        rw [List.length_map, id.length_digits]
        exact other.symm
    have hhyphenated : cs.length ≠ 36 → ofHyphenated? cs = none := fun other =>
      eq_none_of_length (fun _ => ofHyphenated?_eq_some_iff) fun id => by
        rw [length_toChars]
        exact other.symm
    have hbraced : cs.length ≠ 38 → (unbraced? cs >>= ofHyphenated?) = none := fun other =>
      eq_none_of_length (fun _ => ofBraced?_eq_some_iff) fun id => by
        simpa using other.symm
    rintro (h | h | h | h)
    · exact Or.inl h
    · rw [h, length_toChars] at hlength
      exact Or.inr ⟨hplain (by omega), Or.inl h⟩
    · rw [h, List.length_cons, List.length_append, length_toChars] at hlength
      exact Or.inr ⟨hplain (by omega), Or.inr ⟨hhyphenated (by omega), Or.inl h⟩⟩
    · rw [h, List.length_append, length_toChars, hurn] at hlength
      exact Or.inr ⟨hplain (by omega), Or.inr ⟨hhyphenated (by omega), Or.inr
        ⟨hbraced (by omega), h⟩⟩⟩

/-- A text spells one identifier at most. -/
theorem Spells.unique {other : Uuid} (h : id.Spells text) (h' : other.Spells text) : id = other :=
  Option.some.inj ((parse?_eq_some_iff.mpr h).symm.trans (parse?_eq_some_iff.mpr h'))

/-- The hyphenated spelling in lower case is a spelling. -/
theorem spells_toString (id : Uuid) : id.Spells id.toString := by
  have hlower : id.toChars.map Char.toLower = id.toChars := by
    refine (List.map_congr_left fun c hc => ?_).trans (List.map_id' id.toChars)
    rcases mem_toChars hc with rfl | ⟨d, rfl⟩
    · rfl
    · exact Hex.digit?_eq_some_iff.mp (Hex.digit?_char d)
  simp [Spells, spellings, Uuid.toString, hlower]

/-- An identifier is read back from its hyphenated spelling. -/
theorem parse?_toString (id : Uuid) : parse? id.toString = some id :=
  parse?_eq_some_iff.mpr id.spells_toString

/-- Different identifiers are written differently. -/
theorem toString_injective : Function.Injective Uuid.toString := by
  intro id other h
  refine id.spells_toString.unique ?_
  rw [h]
  exact other.spells_toString

end Uuid

end RoomRelay
