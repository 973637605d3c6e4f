import RoomRelay.Proofs.Text.Identifiers
import RoomRelay.Proofs.Text.Trimming
import RoomRelay.Protocol.RoomKey

/-!
# Keys tell rooms apart

The key of a room is its name in one fixed form. A name that spells an identifier, with any blanks
around it, has the written form of the identifier as its key; any other name has itself without the
blanks. As the written form is a spelling too, a key is its own key, and two names have the same key
exactly when they are meant to name the same room.

## Main definitions

* `HasIdentifier` — a name spells an identifier, blanks around it apart

## Main results

* `roomKey_eq_some_iff` — what the key is
* `roomKey_idempotent` — a key is its own key
* `roomKey_eq_roomKey_iff` — which names have the same key
* `roomKey_canonical` — all of it
-/

namespace RoomRelay

variable {raw key : String} {id : Uuid}

/-- Without the blanks around it, the name of a room spells an identifier. -/
def HasIdentifier (raw : String) : Prop := ∃ id : Uuid, id.Spells (Text.trim raw)

theorem parse?_trim_eq_none_iff : Uuid.parse? (Text.trim raw) = none ↔ ¬ HasIdentifier raw := by
  rw [Option.eq_none_iff_forall_ne_some, HasIdentifier, not_exists]
  exact forall_congr' fun id => not_congr Uuid.parse?_eq_some_iff

/-- The empty text spells no identifier. -/
theorem Uuid.Spells.ne_empty {text : String} (h : id.Spells text) : text ≠ "" := by
  rintro rfl
  rw [← Uuid.parse?_eq_some_iff] at h
  exact absurd h nofun

/-! ### What the key is -/

/-- A blank name has no key. -/
theorem roomKey_eq_none_iff : roomKey raw = none ↔ Text.isBlank raw = true := by
  rw [← Text.trim_eq_empty_iff]
  unfold roomKey
  by_cases hempty : Text.trim raw = ""
  · simp [hempty]
  · simp only [String.isEmpty_iff, hempty, if_false, iff_false]
    cases Uuid.parse? (Text.trim raw) <;> simp

/-- The key of a room that is named by its identifier. -/
theorem roomKey_of_spells (h : id.Spells (Text.trim raw)) : roomKey raw = some id.toString := by
  have hname : (Text.trim raw).isEmpty = false := by
    simpa [← Bool.not_eq_true, String.isEmpty_iff] using h.ne_empty
  simp [roomKey, hname, Uuid.parse?_eq_some_iff.mpr h]

/-- The key of a room that is named otherwise. -/
theorem roomKey_of_not_hasIdentifier (hname : Text.trim raw ≠ "") (h : ¬ HasIdentifier raw) :
    roomKey raw = some (Text.trim raw) := by
  have hname : (Text.trim raw).isEmpty = false := by
    simpa [← Bool.not_eq_true, String.isEmpty_iff] using hname
  simp [roomKey, hname, parse?_trim_eq_none_iff.mpr h]

/-- The key is the written form of the identifier, or the name without the blanks around it. -/
theorem roomKey_eq_some_iff :
    roomKey raw = some key ↔ (∃ id : Uuid, id.Spells (Text.trim raw) ∧ key = id.toString) ∨
      (¬ HasIdentifier raw ∧ Text.trim raw ≠ "" ∧ key = Text.trim raw) := by
  by_cases hempty : Text.trim raw = ""
  · rw [roomKey_eq_none_iff.mpr (Text.trim_eq_empty_iff.mp hempty)]
    refine iff_of_false (by simp) ?_
    rintro (⟨id, hid, -⟩ | ⟨-, hname, -⟩)
    · exact hid.ne_empty hempty
    · exact hname hempty
  · by_cases hid : HasIdentifier raw
    · obtain ⟨id, hspells⟩ := hid
      rw [roomKey_of_spells hspells, Option.some_inj, eq_comm]
      constructor
      · exact fun h => Or.inl ⟨id, hspells, h⟩
      · rintro (⟨other, hother, rfl⟩ | ⟨hnone, -⟩)
        · rw [hspells.unique hother]
        · exact absurd ⟨id, hspells⟩ hnone
    · rw [roomKey_of_not_hasIdentifier hempty hid, Option.some_inj, eq_comm]
      constructor
      · exact fun h => Or.inr ⟨hid, hempty, h⟩
      · rintro (⟨other, hother, -⟩ | ⟨-, -, h⟩)
        · exact absurd ⟨other, hother⟩ hid
        · exact h

/-! ### Keys of keys -/

/-- There is no blank in the written form of an identifier. -/
theorem trim_toString (id : Uuid) : Text.trim id.toString = id.toString := by
  have hdigit : ∀ d, isBlankChar (Hex.char d) = false := by decide
  refine Text.trim_of_solid fun c hc => ?_
  rw [Uuid.toString, String.toList_ofList] at hc
  rcases Uuid.mem_toChars hc with rfl | ⟨d, rfl⟩
  · rfl
  · exact hdigit d

/-- The written form of an identifier is its own key. -/
theorem roomKey_toString (id : Uuid) : roomKey id.toString = some id.toString := by
  refine roomKey_of_spells ?_
  rw [trim_toString]
  exact id.spells_toString

/-- Blanks around a name do not change its key. -/
theorem roomKey_trim (raw : String) : roomKey (Text.trim raw) = roomKey raw := by
  unfold roomKey
  rw [Text.trim_trim]

/-- A key is its own key. -/
theorem roomKey_idempotent (h : roomKey raw = some key) : roomKey key = some key := by
  obtain ⟨id, -, rfl⟩ | ⟨-, -, rfl⟩ := roomKey_eq_some_iff.mp h
  · exact roomKey_toString id
  · rw [roomKey_trim, h]

/-! ### Names with the same key -/

/-- Only names of identifiers have the key of an identifier. -/
theorem spells_of_roomKey_eq (h : roomKey raw = some id.toString) :
    id.Spells (Text.trim raw) := by
  obtain ⟨other, hother, heq⟩ | ⟨hnone, -, heq⟩ := roomKey_eq_some_iff.mp h
  · rwa [Uuid.toString_injective heq]
  · refine absurd ⟨id, ?_⟩ hnone
    rw [← heq]
    exact id.spells_toString

/-- Two names with the same key name the same room, or none. -/
theorem roomKey_eq_roomKey_iff {x y : String} :
    roomKey x = roomKey y ↔
      (Text.isBlank x = true ∧ Text.isBlank y = true) ∨
      (∃ id : Uuid, id.Spells (Text.trim x) ∧ id.Spells (Text.trim y)) ∨
      (¬ HasIdentifier x ∧ ¬ HasIdentifier y ∧ Text.trim x = Text.trim y) := by
  constructor
  · intro h
    cases hx : roomKey x with
    | none => exact Or.inl ⟨roomKey_eq_none_iff.mp hx, roomKey_eq_none_iff.mp (h.symm.trans hx)⟩
    | some key =>
      have hy : roomKey y = some key := h.symm.trans hx
      obtain ⟨id, hid, rfl⟩ | ⟨hnone, -, rfl⟩ := roomKey_eq_some_iff.mp hx
      · exact Or.inr (Or.inl ⟨id, hid, spells_of_roomKey_eq hy⟩)
      · obtain ⟨id, -, heq⟩ | ⟨hnone', -, heq⟩ := roomKey_eq_some_iff.mp hy
        · exact absurd ⟨id, spells_of_roomKey_eq (heq ▸ hx)⟩ hnone
        · exact Or.inr (Or.inr ⟨hnone, hnone', heq⟩)
  · rintro (⟨hx, hy⟩ | ⟨id, hx, hy⟩ | ⟨-, -, heq⟩)
    · rw [roomKey_eq_none_iff.mpr hx, roomKey_eq_none_iff.mpr hy]
    · rw [roomKey_of_spells hx, roomKey_of_spells hy]
    · rw [← roomKey_trim x, heq, roomKey_trim]

/-- **Keys of rooms.** Whatever the two texts are: a text has no key exactly if it is blank. A key
is its own key. Two texts have the same key, or both none, exactly if both are blank, or both spell
the same identifier once the blanks around them are dropped, or neither spells one and they are the
same without these blanks. In particular a room that is named by an identifier never shares its key
with one that is named otherwise. -/
theorem roomKey_canonical (x y : String) :
    (roomKey x = none ↔ Text.isBlank x = true) ∧
    (∀ key, roomKey x = some key → roomKey key = some key) ∧
    (roomKey x = roomKey y ↔
      (Text.isBlank x = true ∧ Text.isBlank y = true) ∨
      (∃ id : Uuid, id.Spells (Text.trim x) ∧ id.Spells (Text.trim y)) ∨
      (¬ HasIdentifier x ∧ ¬ HasIdentifier y ∧ Text.trim x = Text.trim y)) ∧
    (HasIdentifier x → ¬ HasIdentifier y → roomKey x ≠ roomKey y) := by
  refine ⟨roomKey_eq_none_iff, fun _ => roomKey_idempotent, roomKey_eq_roomKey_iff, ?_⟩
  rintro ⟨id, hid⟩ hnone heq
  exact hnone ⟨id, spells_of_roomKey_eq (heq ▸ roomKey_of_spells hid)⟩

/-- The identifier 10 between braces, in upper case and behind a tab. -/
def tenBraced : String := "\t{00000000-0000-4000-8000-00000000000A}"

/-- The same identifier as a resource name, with an ideographic space at its end. -/
def tenNamed : String := "URN:uuid:00000000-0000-4000-8000-00000000000a\u3000"

/-- Both spellings of the identifier lead to one room, which is not that of the den. -/
theorem roomKey_canonical_of_ten :
    roomKey tenBraced = roomKey tenNamed ∧ roomKey tenBraced ≠ roomKey " den\n" ∧
      roomKey "den" = some "den" := by
  have hbraced : (Uuid.version4 10).Spells (Text.trim tenBraced) := by decide +kernel
  have hnamed : (Uuid.version4 10).Spells (Text.trim tenNamed) := by decide +kernel
  have hden : ¬ HasIdentifier " den\n" := parse?_trim_eq_none_iff.mp (by decide +kernel)
  refine ⟨?_, ?_, ?_⟩
  · exact (roomKey_canonical tenBraced tenNamed).2.2.1.mpr (Or.inr (Or.inl ⟨_, hbraced, hnamed⟩))
  · exact (roomKey_canonical tenBraced " den\n").2.2.2 ⟨_, hbraced⟩ hden
  · exact (roomKey_canonical " den\n" "den").2.1 "den" (by decide +kernel)

end RoomRelay
