import Mathlib.Data.List.DropRight
import RoomRelay.Text.Blank

/-!
# Trimmed texts

Trimming drops the blanks at the two ends of a text and nothing else. What is left has no blanks at
its ends, so that trimming it once more changes nothing.

## Main results

* `Text.trim_trim` — trimming twice is trimming once
* `Text.trim_eq_empty_iff` — nothing is left exactly of a blank text
* `Text.trim_of_solid` — a text without blanks stays as it is
-/

namespace RoomRelay.Text

/-- Trimming on the left does not change what has been trimmed on the left before. -/
theorem trimLeft_trimChars (cs : List Char) : trimLeft (trimChars cs) = trimChars cs := by
  -- What is left starts as the text did after its first blanks were dropped.
  obtain ⟨rest, hrest⟩ : trimChars cs <+: trimLeft cs := List.rdropWhile_prefix isBlankChar _
  cases hcs : trimChars cs with
  | nil => rfl
  | cons c more =>
    have hhead := List.head?_dropWhile_not isBlankChar cs
    rw [show cs.dropWhile isBlankChar = trimChars cs ++ rest from hrest.symm, hcs] at hhead
    exact List.dropWhile_cons_of_neg (by simpa using hhead)

theorem trimChars_trimChars (cs : List Char) : trimChars (trimChars cs) = trimChars cs := by
  have hright : trimRight (trimChars cs) = trimChars cs :=
    List.rdropWhile_idempotent isBlankChar (trimLeft cs)
  rw [trimChars, trimLeft_trimChars, hright]

/-- Trimming twice is trimming once. -/
theorem trim_trim (text : String) : trim (trim text) = trim text := by
  unfold trim
  rw [String.toList_ofList, trimChars_trimChars]

/-- Nothing is left exactly of a blank text. -/
theorem trim_eq_empty_iff {text : String} : trim text = "" ↔ isBlank text = true := by
  rw [trim, isBlank, ← trimChars_eq_nil_iff, ← String.toList_inj, String.toList_ofList]
  rfl

theorem trimLeft_of_solid {cs : List Char} (h : ∀ c ∈ cs, isBlankChar c = false) :
    trimLeft cs = cs := by
  cases cs with
  | nil => rfl
  | cons c cs => exact List.dropWhile_cons_of_neg (by simp [h c List.mem_cons_self])

/-- A text without blanks stays as it is. -/
theorem trim_of_solid {text : String} (h : ∀ c ∈ text.toList, isBlankChar c = false) :
    trim text = text := by
  have hreverse : ∀ c ∈ text.toList.reverse, isBlankChar c = false := by simpa using h
  rw [trim, trimChars, trimRight, trimLeft_of_solid h, trimLeft_of_solid hreverse,
    List.reverse_reverse, String.ofList_toList]

end RoomRelay.Text
