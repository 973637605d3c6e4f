/-!
# Finite tables and sets

A table holds at most one value for each key, and a set each element at most once. Both are lists
that say so of themselves; the order in which entries stand is the order in which their keys came.
Two tables are *the same* if they answer every look-up alike.

## Main definitions

* `Table`, `Table.get?`, `Table.insert`, `Table.erase` — tables
* `Table.Same` — equality of tables as maps
* `FinSet`, `FinSet.insert`, `FinSet.erase` — sets

## Main results

* `Table.get?_insert`, `Table.get?_erase` — what a table answers after a change
* `FinSet.mem_insert`, `FinSet.mem_erase` — what a set holds after a change
-/

namespace RoomRelay

variable {κ ν : Type}

/-- A table of values under keys. -/
structure Table (κ ν : Type) where
  /-- The keys with their values. -/
  entries : List (κ × ν) := []
  /-- No key stands twice. -/
  nodup : (entries.map Prod.fst).Nodup := by exact List.nodup_nil

namespace Table

instance : Inhabited (Table κ ν) := ⟨{}⟩

variable [DecidableEq κ]

/-- The value of the first entry with this key. -/
def find (key : κ) : List (κ × ν) → Option ν
  | [] => none
  | (k, v) :: rest => if k = key then some v else find key rest

/-- The entries with the value of a key replaced, or with a new one at the end. -/
def put (key : κ) (value : ν) : List (κ × ν) → List (κ × ν)
  | [] => [(key, value)]
  | (k, v) :: rest => if k = key then (key, value) :: rest else (k, v) :: put key value rest

theorem map_fst_put (key : κ) (value : ν) (es : List (κ × ν)) :
    (put key value es).map Prod.fst =
      if key ∈ es.map Prod.fst then es.map Prod.fst else es.map Prod.fst ++ [key] := by
  induction es with
  | nil => simp [put]
  | cons e es ih =>
    obtain ⟨k, v⟩ := e
    by_cases h : k = key
    · simp [put, h]
    · have h' : ¬ key = k := fun e => h e.symm
      by_cases hm : key ∈ es.map Prod.fst
      · simp only [put, h, if_false, List.map_cons, ih, List.mem_cons, hm, or_true,
          if_true]
      · simp only [put, h, if_false, List.map_cons, ih, List.mem_cons, h', hm, or_self,
          List.cons_append]

theorem nodup_put (key : κ) (value : ν) {es : List (κ × ν)} (h : (es.map Prod.fst).Nodup) :
    ((put key value es).map Prod.fst).Nodup := by
  rw [map_fst_put]
  split
  · exact h
  · rename_i hm
    rw [List.nodup_append]
    refine ⟨h, by simp, ?_⟩
    intro a ha b hb
    rw [List.mem_singleton] at hb
    rintro rfl
    exact hm (hb ▸ ha)

omit [DecidableEq κ] in
theorem nodup_filter (p : κ × ν → Bool) {es : List (κ × ν)} (h : (es.map Prod.fst).Nodup) :
    ((es.filter p).map Prod.fst).Nodup :=
  h.sublist (List.filter_sublist.map _)

/-- The value of a key. -/
def get? (t : Table κ ν) (key : κ) : Option ν := find key t.entries

/-- Whether a key has a value. -/
def contains (t : Table κ ν) (key : κ) : Bool := (t.get? key).isSome

/-- The keys in the order in which they came. -/
def keys (t : Table κ ν) : List κ := t.entries.map Prod.fst

/-- The values in the order of their keys. -/
def values (t : Table κ ν) : List ν := t.entries.map Prod.snd

/-- The number of keys. -/
def size (t : Table κ ν) : Nat := t.entries.length

/-- The table with a value under a key, in place of the one it had. -/
def insert (t : Table κ ν) (key : κ) (value : ν) : Table κ ν :=
  ⟨put key value t.entries, nodup_put key value t.nodup⟩

/-- The table without a key. -/
def erase (t : Table κ ν) (key : κ) : Table κ ν :=
  ⟨t.entries.filter fun e => e.1 ≠ key, nodup_filter _ t.nodup⟩

/-- Two tables answer every look-up alike. -/
def Same (s t : Table κ ν) : Prop := ∀ key, s.get? key = t.get? key

@[simp] theorem get?_empty (key : κ) : ({} : Table κ ν).get? key = none := rfl

theorem find_put (key other : κ) (value : ν) (es : List (κ × ν)) :
    find other (put key value es) = if key = other then some value else find other es := by
  induction es with
  | nil => simp [put, find]
  | cons e es ih =>
    obtain ⟨k, v⟩ := e
    by_cases h : k = key
    · subst h
      by_cases ho : k = other <;> simp [put, find, ho]
    · by_cases ho : k = other
      · subst ho
        simp [put, find, h, Ne.symm h]
      · simp [put, find, h, ho, ih]

theorem find_filter (key other : κ) (es : List (κ × ν)) :
    find other (es.filter fun e => e.1 ≠ key) = if key = other then none else find other es := by
  induction es with
  | nil => simp [find]
  | cons e es ih =>
    obtain ⟨k, v⟩ := e
    by_cases h : k = key
    · subst h
      rw [List.filter_cons_of_neg (by simp), ih]
      by_cases ho : k = other <;> simp [find, ho]
    · rw [List.filter_cons_of_pos (by simp [h])]
      by_cases ho : k = other
      · subst ho
        simp [find, Ne.symm h]
      · rw [find, if_neg ho, ih, find, if_neg ho]

@[simp] theorem get?_insert (t : Table κ ν) (key other : κ) (value : ν) :
    (t.insert key value).get? other = if key = other then some value else t.get? other :=
  find_put key other value t.entries

@[simp] theorem get?_erase (t : Table κ ν) (key other : κ) :
    (t.erase key).get? other = if key = other then none else t.get? other :=
  find_filter key other t.entries

end Table

/-- A finite set. -/
structure FinSet (α : Type) where
  /-- The elements in the order in which they came. -/
  toList : List α := []
  /-- None stands twice. -/
  nodup : toList.Nodup := by exact List.nodup_nil

namespace FinSet

variable {α : Type}

instance : Inhabited (FinSet α) := ⟨{}⟩

instance : Membership α (FinSet α) := ⟨fun s a => a ∈ s.toList⟩

instance [DecidableEq α] (a : α) (s : FinSet α) : Decidable (a ∈ s) :=
  inferInstanceAs (Decidable (a ∈ s.toList))

theorem mem_iff {a : α} {s : FinSet α} : a ∈ s ↔ a ∈ s.toList := Iff.rfl

/-- The set has no element. -/
def isEmpty (s : FinSet α) : Bool := s.toList.isEmpty

variable [DecidableEq α]

/-- The set with an element more, unless it has it already. -/
def insert (s : FinSet α) (a : α) : FinSet α :=
  if h : a ∈ s.toList then s
  else ⟨s.toList ++ [a], by
    rw [List.nodup_append]
    refine ⟨s.nodup, by simp, ?_⟩
    intro b hb c hc
    rw [List.mem_singleton] at hc
    rintro rfl
    exact h (hc ▸ hb)⟩

/-- The set without an element. -/
def erase (s : FinSet α) (a : α) : FinSet α :=
  ⟨s.toList.filter (· ≠ a), s.nodup.sublist List.filter_sublist⟩

omit [DecidableEq α] in
@[simp] theorem not_mem_empty (a : α) : a ∉ ({} : FinSet α) := by simp [mem_iff]

@[simp] theorem mem_insert {s : FinSet α} {a b : α} : b ∈ s.insert a ↔ b = a ∨ b ∈ s := by
  unfold insert
  split
  · rename_i h
    exact ⟨Or.inr, fun h' => h'.elim (fun e => e ▸ h) id⟩
  · simp [mem_iff, or_comm]

@[simp] theorem mem_erase {s : FinSet α} {a b : α} : b ∈ s.erase a ↔ b ≠ a ∧ b ∈ s := by
  simp [mem_iff, erase, and_comm]

end FinSet

end RoomRelay
