import Mathlib.Data.List.Induction

/-!
# Runs of a step relation

A system is given by a relation between a state, what happens in it, and the state after that. A run
is a finite chain of such steps. It is recorded with the states in between, so that one can say of
any moment of a run what was the case when it began.

## Main definitions

* `Moment` — one step with the states before and after it
* `Trace` — a run, extended at its end
* `Moment.seen` — what a step looks like to somebody who sees part of the state and some events
* `Trace.follow` — a run computed from a list of moves

## Main results

* `Trace.preserves` — what every step keeps, every run keeps
* `Trace.of_follow` — what is computed is a run
* `Trace.append`, `Trace.split` — a run is continued, or cut in two
* `Trace.at_moment` — a run is cut in three around any of its moments
* `Trace.seen` — what is seen of a run is a run
-/

namespace RoomRelay

variable {σ τ ε δ : Type}

/-- A list is cut around one of its places. -/
theorem exists_cut {xs : List σ} {number : Nat} {x : σ} (h : xs[number]? = some x) :
    ∃ before after, before.length = number ∧ xs = before ++ x :: after ∧
      ∀ y, xs.set number y = before ++ y :: after := by
  obtain ⟨hlen, hget⟩ := List.getElem?_eq_some_iff.mp h
  refine ⟨xs.take number, xs.drop (number + 1), ?_, ?_, fun y => ?_⟩
  · exact List.length_take_of_le (Nat.le_of_lt hlen)
  · rw [← hget, List.getElem_cons_drop, List.take_append_drop]
  · rw [List.set_eq_take_append_cons_drop, if_pos hlen]

/-- What one more place adds to a selection from a list. -/
theorem filterMap_snoc (f : σ → Option τ) (xs : List σ) (x : σ) :
    (xs ++ [x]).filterMap f = xs.filterMap f ++ (f x).toList := by
  rw [List.filterMap_append]
  cases h : f x <;> simp [h]

/-- One step of a run. -/
structure Moment (σ ε : Type) where
  /-- The state in which it happens. -/
  before : σ
  /-- What happens. -/
  event : ε
  /-- The state that it leads to. -/
  after : σ

/-- What is seen of a moment, if its event is seen at all. -/
def Moment.seen (view : σ → τ) (see : ε → Option δ) (m : Moment σ ε) : Option (Moment τ δ) :=
  (see m.event).map fun event => ⟨view m.before, event, view m.after⟩

/-- The moments of a run from one state to another one, earliest first. -/
inductive Trace (step : σ → ε → σ → Prop) (start : σ) : List (Moment σ ε) → σ → Prop
  | nil : Trace step start [] start
  | snoc {past : List (Moment σ ε)} {s t : σ} {e : ε} :
    Trace step start past s → step s e t → Trace step start (past ++ [⟨s, e, t⟩]) t

namespace Trace

/-- A run with one more move, if that is possible. -/
def extend {μ : Type} (next? : σ → μ → Option (ε × σ)) (run : List (Moment σ ε) × σ) (move : μ) :
    List (Moment σ ε) × σ :=
  match next? run.2 move with
  | some (event, after) => (run.1 ++ [⟨run.2, event, after⟩], after)
  | none => run

/-- The run that a list of moves leads to, with its last state. A move that is not possible when its
turn comes is left out. -/
def follow {μ : Type} (next? : σ → μ → Option (ε × σ)) (start : σ) (moves : List μ) :
    List (Moment σ ε) × σ :=
  moves.foldl (extend next?) ([], start)

variable {step : σ → ε → σ → Prop} {start last : σ} {past future : List (Moment σ ε)}

/-- **Invariant induction.** What holds at the start and is kept by every step holds at the end. -/
theorem preserves {P : σ → Prop} (hstep : ∀ {s e t}, step s e t → P s → P t)
    (run : Trace step start past last) (hstart : P start) : P last := by
  induction run with
  | nil => exact hstart
  | snoc _ h ih => exact hstep h ih

/-- A run is continued by another one. -/
theorem append {middle : σ} (run : Trace step start past middle)
    (more : Trace step middle future last) : Trace step start (past ++ future) last := by
  induction more with
  | nil => rwa [List.append_nil]
  | snoc _ h ih =>
    rw [← List.append_assoc]
    exact ih.snoc h

/-- A run is cut in two behind any of its moments. -/
theorem split (run : Trace step start (past ++ future) last) :
    ∃ middle, Trace step start past middle ∧ Trace step middle future last := by
  -- The run grows at its end, so the induction is on the second part, read backwards.
  induction future using List.reverseRecOn generalizing last with
  | nil => exact ⟨last, by simpa using run, .nil⟩
  | append_singleton future m ih =>
    rw [← List.append_assoc] at run
    generalize hall : past ++ future ++ [m] = all at run
    cases run with
    | nil => exact absurd hall (by simp)
    | snoc run h =>
      obtain ⟨rfl, hm⟩ := List.append_inj' hall rfl
      obtain rfl := List.singleton_inj.mp hm
      obtain ⟨middle, hleft, hright⟩ := ih run
      exact ⟨middle, hleft, hright.snoc h⟩

/-- Any moment of a run is a step, with a run before it and a run after it. -/
theorem at_moment {m : Moment σ ε} (run : Trace step start (past ++ m :: future) last) :
    Trace step start past m.before ∧ step m.before m.event m.after ∧
      Trace step m.after future last := by
  rw [List.append_cons] at run
  obtain ⟨middle, hleft, hright⟩ := run.split
  generalize hall : past ++ [m] = all at hleft
  cases hleft with
  | nil => exact absurd hall (by simp)
  | snoc hpast h =>
    obtain ⟨rfl, hm⟩ := List.append_inj' hall rfl
    obtain rfl := List.singleton_inj.mp hm
    exact ⟨hpast, h, hright⟩

/-- What is seen of a run is a run, if whatever is seen of a step is a step and nothing changes
unseen. -/
theorem seen {view : σ → τ} {see : ε → Option δ} {step' : τ → δ → τ → Prop}
    (hseen : ∀ {s e t d}, step s e t → see e = some d → step' (view s) d (view t))
    (hunseen : ∀ {s e t}, step s e t → see e = none → view t = view s)
    (run : Trace step start past last) :
    Trace step' (view start) (past.filterMap (Moment.seen view see)) (view last) := by
  induction run with
  | nil => exact .nil
  | @snoc past s t e _ h ih =>
    rw [List.filterMap_append]
    cases he : see e with
    | none =>
      rw [hunseen h he]
      simpa [Moment.seen, he] using ih
    | some d => simpa [Moment.seen, he] using ih.snoc (hseen h he)

/-- If every move is a step, a list of moves leads to a run. -/
theorem of_follow {μ : Type} {next? : σ → μ → Option (ε × σ)}
    (hnext : ∀ {s move e t}, next? s move = some (e, t) → step s e t) (moves : List μ) :
    Trace step start (follow next? start moves).1 (follow next? start moves).2 := by
  have hfold : ∀ run : List (Moment σ ε) × σ, Trace step start run.1 run.2 →
      Trace step start (moves.foldl (extend next?) run).1 (moves.foldl (extend next?) run).2 := by
    induction moves with
    | nil => exact fun _ hrun => hrun
    | cons move moves ih =>
      intro run hrun
      refine ih _ ?_
      unfold extend
      split
      · rename_i hmove
        exact hrun.snoc (hnext hmove)
      · exact hrun
  exact hfold _ .nil

end Trace

end RoomRelay
