/-!
# The pieces of a text

A text is cut at all places where a certain character stands. Its pieces are the parts between two
such places, or between one of them and an end, in which the character does not occur.

## Main definitions

* `IsPiece` — a piece of a list

## Main results

* `mem_splitOn_iff` — a list is cut into its pieces
-/

namespace RoomRelay

variable {α : Type} {sep : α} {xs piece : List α}

/-- A part without the separator that reaches from one separator, or the start, to the next one, or
the end. -/
def IsPiece (sep : α) (xs piece : List α) : Prop :=
  sep ∉ piece ∧ ∃ before after, xs = before ++ piece ++ after ∧
    (before = [] ∨ before.getLast? = some sep) ∧ (after = [] ∨ after.head? = some sep)

theorem isPiece_self (h : sep ∉ xs) : IsPiece sep xs xs :=
  ⟨h, [], [], by simp, Or.inl rfl, Or.inl rfl⟩

/-- A piece stays one if something is put behind a separator at the end. -/
theorem IsPiece.append_right (h : IsPiece sep xs piece) (rest : List α) :
    IsPiece sep (xs ++ sep :: rest) piece := by
  obtain ⟨hsep, before, after, rfl, hbefore, hafter⟩ := h
  refine ⟨hsep, before, after ++ sep :: rest, by simp, hbefore, Or.inr ?_⟩
  rcases hafter with rfl | hafter <;> simp_all

/-- A piece stays one if something is put in front of a separator at the start. -/
theorem IsPiece.append_left (h : IsPiece sep xs piece) (rest : List α) :
    IsPiece sep (rest ++ sep :: xs) piece := by
  obtain ⟨hsep, before, after, rfl, hbefore, hafter⟩ := h
  refine ⟨hsep, rest ++ sep :: before, after, by simp, Or.inr ?_, hafter⟩
  rcases hbefore with rfl | hbefore <;> simp_all [List.getLast?_cons]

/-- A list is cut into its pieces. -/
theorem mem_splitOn_iff [DecidableEq α] : piece ∈ xs.splitOn sep ↔ IsPiece sep xs piece := by
  constructor
  · -- The list is cut at any separator, and each part is shorter.
    intro h
    induction hlen : xs.length using Nat.strongRecOn generalizing xs with
    | ind n ih =>
      by_cases hmem : sep ∈ xs
      · obtain ⟨left, right, rfl⟩ := List.append_of_mem hmem
        rw [List.splitOn_append_cons_self, List.mem_append] at h
        simp only [List.length_append, List.length_cons] at hlen
        rcases h with h | h
        · exact (ih _ (by omega) h rfl).append_right right
        · exact (ih _ (by omega) h rfl).append_left left
      · rw [List.splitOn_eq_singleton hmem, List.mem_singleton] at h
        obtain rfl := h
        exact isPiece_self hmem
  · rintro ⟨hsep, before, after, rfl, hbefore, hafter⟩
    have hrest : piece ∈ (piece ++ after).splitOn sep := by
      rcases hafter with rfl | hafter
      · simp [List.splitOn_eq_singleton hsep]
      · obtain ⟨rest, rfl⟩ := List.head?_eq_some_iff.mp hafter
        simp [List.splitOn_append_cons_self_of_not_mem hsep]
    rcases hbefore with rfl | hbefore
    · exact hrest
    · obtain ⟨start, rfl⟩ := List.getLast?_eq_some_iff.mp hbefore
      have hcut : start ++ [sep] ++ piece ++ after = start ++ sep :: (piece ++ after) := by simp
      rw [hcut, List.splitOn_append_cons_self, List.mem_append]
      exact Or.inr hrest

end RoomRelay
