import RoomRelay.Proofs.Gateway.Prospect
import RoomRelay.Proofs.Gateway.Traffic

/-!
# Whoever is present is marked

A session is registered before its marker is set, and a marker is cleared when its identity may have
a new session already. In between an identity may have a session and no marker. This file shows that
some errand then still has to set the marker, whatever else goes on, so that no identity with a
session is without its marker once all errands are done.

## Main definitions

* `Routine.Restores` — the routine is going to set the marker of an identity that is present
* `Call.Endangers` — the answer to the call may leave an identity present without its marker
* `Routine.Careful` — the routine restores whatever it endangers
* `Traffic.Guarded` — an identity that is present has its marker, or some task restores it

## Main results

* `Traffic.Guarded.step` — no step leaves an identity unguarded
* `Traffic.Run.marker_of_current` — at rest, every identity with a session has its marker
-/

namespace RoomRelay

variable {α β : Type} {userId : String}

/-! ### Careful routines -/

/-- Whoever asks for an identity that is present finds it so. -/
def Call.Confirms (userId : String) : (request : Call) → request.Reply → Prop
  | .isPresent other, present => other = userId → present = true
  | _, _ => True

/-- The routine is going to set the marker of an identity, as long as the identity is present. -/
abbrev Routine.Restores (userId : String) (r : Routine α) : Prop :=
  r.Reaches (.presence (.setOnline userId)) (Call.Confirms userId)

/-- The answer to the call may leave an identity present without its marker: a session of it has
been admitted, or the marker has been cleared. -/
inductive Call.Endangers (userId : String) : (request : Call) → request.Reply → Prop
  | admitted {session : Session} (evicted : Option Session) (same : session.userId = userId) :
    Endangers userId (.enroll session) (.admitted evicted)
  | cleared (reply : Except DomainFailure Unit) :
    Endangers userId (.presence (.setOffline userId)) reply

namespace Routine

/-- Whenever the routine endangers the marker of an identity, it is going to set it, unless it has
closed the hub. -/
def Careful (userId : String) : Routine α → Prop
  | done _ => True
  | call request next => request = .drain ∨
    ∀ reply, (next reply).Careful userId ∧
      (request.Endangers userId reply → (next reply).Restores userId)

theorem Careful.bind {r : Routine α} {f : α → Routine β} (h : r.Careful userId)
    (hf : ∀ a, (f a).Careful userId) : (r >>= f).Careful userId := by
  induction r with
  | done a => exact hf a
  | call request next ih =>
    refine h.imp_right fun hn reply => ⟨ih reply (hn reply).1, fun he => ?_⟩
    exact ((hn reply).2 he).bind f

theorem IsBystander.careful {r : Routine α} (h : r.IsBystander) : r.Careful userId := by
  induction r with
  | done a => exact trivial
  | call request next ih =>
    refine Or.inr fun reply => ⟨ih reply (h.2 reply), fun he => ?_⟩
    cases he <;> exact h.1.elim

end Routine

open Routine

theorem restores_markOnline : (markOnline userId).Restores userId := Or.inl rfl

theorem careful_markOnline (other : String) : (markOnline other).Careful userId := by
  refine Or.inr fun reply => ⟨?_, fun he => nomatch he⟩
  cases reply with
  | ok _ => exact trivial
  | error _ => exact (isBystander_note _).careful

/-- A marker that is cleared is looked at again. -/
theorem careful_clearMarker (other : String) : (clearMarker other).Careful userId := by
  have hlook : (ask (.isPresent other) >>= fun present =>
      if present then markOnline other else done ()).Careful userId := by
    refine Or.inr fun present => ⟨?_, fun he => nomatch he⟩
    cases present with
    | false => exact trivial
    | true => exact careful_markOnline other
  refine Or.inr fun reply => ⟨?_, fun he => ?_⟩
  · -- Nothing is endangered once the marker has been looked at again.
    refine Careful.bind ?_ fun _ => hlook
    cases reply with
    | ok _ => exact trivial
    | error _ => exact (isBystander_note _).careful
  · -- As long as the identity is present, looking at it leads to setting its marker.
    cases he
    refine reaches_bind_of_forall _ fun _ => Or.inr fun present hp => ?_
    obtain rfl : present = true := hp rfl
    exact restores_markOnline

theorem careful_register (session : Session) : (register session).Careful userId := by
  rw [register_eq]
  refine Or.inr fun admission => ?_
  cases admission with
  | refused =>
    refine ⟨?_, fun he => nomatch he⟩
    exact (isBystander_note _).careful.bind fun _ => trivial
  | admitted evicted =>
    constructor
    · exact (isBystander_noteIf _ _).careful.bind fun _ =>
        (careful_markOnline _).bind fun _ => (isBystander_note _).careful.bind fun _ => trivial
    · rintro ⟨-, rfl⟩
      exact reaches_bind_of_forall _ fun _ => restores_markOnline.bind _

theorem careful_unregister (session : Session) : (unregister session).Careful userId := by
  rw [unregister_eq]
  refine Or.inr fun outcome => ⟨?_, fun he => nomatch he⟩
  refine (isBystander_noteIf _ _).careful.bind fun _ => Careful.bind ?_ fun _ => trivial
  split
  · exact trivial
  · exact careful_clearMarker _

theorem Errand.careful_routine (errand : Errand) : errand.routine.Careful userId := by
  cases errand with
  | register session => exact careful_register session
  | unregister session => exact careful_unregister session
  | join session roomId => exact (isBystander_joinRoom session roomId).careful
  | leave session roomId => exact (isBystander_leaveRoom session roomId).careful
  | broadcast envelope => exact (isBystander_broadcast envelope).careful
  | shutdown => exact Or.inl rfl

/-! ### Traffic -/

namespace Traffic

/-- The hub is closed, or all tasks are careful and the identity, if it is present, has its marker
or a task that is going to set it. -/
def Guarded (userId : String) (t : Traffic) : Prop :=
  t.gateway.hub.registry.closed = true ∨
  (∀ task ∈ t.tasks, task.rest.Careful userId) ∧
    (t.gateway.hub.isPresent userId = true →
      userId ∈ t.gateway.presence.online ∨ ∃ task ∈ t.tasks, task.rest.Restores userId)

variable {may : Traffic → Errand → Prop} {t t' start : Traffic} {event : Event}

/-- Whatever is asked, no identity is left unguarded. -/
theorem Guarded.begin {errand : Errand} (h : Guarded userId t) :
    Guarded userId { t with tasks := t.tasks ++ [⟨errand, errand.routine⟩] } := by
  refine h.imp_right fun ⟨hcareful, hpresent⟩ => ⟨?_, fun hp => ?_⟩
  · intro task htask
    rcases List.mem_append.mp htask with hold | hnew
    · exact hcareful task hold
    · obtain rfl := List.mem_singleton.mp hnew
      exact errand.careful_routine
  · refine (hpresent hp).imp_right ?_
    rintro ⟨task, htask, hr⟩
    exact ⟨task, List.mem_append_left _ htask, hr⟩

/-- No call leaves an identity unguarded. -/
theorem Guarded.call {g g' : Gateway} {before after : List Task} {errand : Errand}
    {request : Call} {next : request.Reply → Routine errand.Result} {reply : request.Reply}
    (h : Guarded userId ⟨g, before ++ ⟨errand, .call request next⟩ :: after⟩)
    (answers : g.Answers request reply g') :
    Guarded userId ⟨g', before ++ ⟨errand, next reply⟩ :: after⟩ := by
  rcases h with hclosed | ⟨hcareful, hpresent⟩
  · exact Or.inl (answers.closed hclosed)
  have hothers : ∀ task ∈ before ++ after, task.rest.Careful userId :=
    fun task htask => hcareful task (mem_tasks_iff.mpr (Or.inr htask))
  rcases hcareful ⟨errand, .call request next⟩ (mem_tasks_iff.mpr (Or.inl rfl)) with rfl | hnext
  · exact Or.inl answers.closed_of_drain
  refine Or.inr ⟨?_, fun hp => ?_⟩
  · intro task htask
    rcases mem_tasks_iff.mp htask with rfl | hother
    · exact (hnext reply).1
    · exact hothers task hother
  -- If the task that goes on restores the marker, it is the one to name.
  have hself : (next reply).Restores userId →
      ∃ task ∈ before ++ ⟨errand, next reply⟩ :: after, task.rest.Restores userId :=
    fun hr => ⟨_, mem_tasks_iff.mpr (Or.inl rfl), hr⟩
  rcases answers.isPresent hp with hold | ⟨session, hadmits, hsame⟩
  · rcases hpresent hold with honline | ⟨task, htask, hr⟩
    · -- Whoever clears the marker is careful.
      by_cases hclears : request = .presence (.setOffline userId)
      · subst hclears
        exact Or.inr (hself ((hnext reply).2 (.cleared reply)))
      · exact Or.inl (answers.mem_online_iff.mpr (Or.inr ⟨hclears, honline⟩))
    · rcases mem_tasks_iff.mp htask with rfl | hother
      · rcases hr with rfl | hr
        · exact Or.inl (answers.mem_online_iff.mpr (Or.inl rfl))
        · -- The identity is present, so that is what the reply says if the task asked.
          refine Or.inr (hself (hr reply ?_))
          cases request with
          | isPresent other =>
            rintro rfl
            exact answers.eq_isPresent.trans hold
          | _ => exact trivial
      · exact Or.inr ⟨task, mem_tasks_iff.mpr (Or.inr hother), hr⟩
  · cases hadmits with
    | admitted evicted => exact Or.inr (hself ((hnext _).2 (.admitted evicted hsame)))

/-- No step leaves an identity unguarded. -/
theorem Guarded.step (h : Guarded userId t) (step : Step may t event t') : Guarded userId t' := by
  cases step with
  | begin => exact h.begin
  | call answers => exact h.call answers
  | handle => exact h

theorem guarded_start (empty : start.gateway.hub.registry = {}) (idle : start.tasks = []) :
    Guarded userId start := by
  refine Or.inr ⟨?_, fun hp => ?_⟩
  · rw [idle]
    exact fun task htask => absurd htask (by simp)
  · rw [Hub.isPresent, empty] at hp
    exact absurd hp (by simp [Registry.current])

/-- **Whoever is present is marked.** Whatever is asked of a hub that starts without sessions, by
however many errands side by side, and in whatever order their calls are answered: once no errand is
at work, an identity that has a current session has its marker set. -/
theorem Run.marker_of_current {past : List (Moment Traffic Event)} {id : SessionId}
    (run : Run may start past t) (empty : start.gateway.hub.registry = {})
    (idle : start.tasks = []) (rest : t.AtRest)
    (current : t.gateway.hub.registry.current userId = some id) :
    userId ∈ t.gateway.presence.online := by
  have hindexed := run.indexed empty
  have hguarded : Guarded userId t :=
    run.preserves (fun step h => h.step step) (guarded_start empty idle)
  have hpresent : t.gateway.hub.isPresent userId = true := by
    rw [Hub.isPresent, current]
    rfl
  rcases hguarded with hclosed | ⟨-, honline⟩
  · -- A closed hub has no current session.
    rw [hindexed.current_of_closed hclosed] at current
    exact absurd current (by simp)
  · rcases honline hpresent with hmarked | ⟨⟨errand, routine⟩, htask, hr⟩
    · exact hmarked
    · -- A task that is still to set the marker is not done.
      have hdone := rest _ htask
      cases routine with
      | done _ => exact hr.elim
      | call _ _ => exact hdone.elim

/-- A session is taken out, and before its marker is cleared another session of the identity comes
and sets it. -/
def lateClearing : List Move :=
  .begin (.register (Hub.sessionOf "alice" 1)) :: Move.steps 0 3 ++
  .begin (.unregister (Hub.sessionOf "alice" 1)) :: Move.steps 1 2 ++
  .begin (.register (Hub.sessionOf "alice" 2)) :: Move.steps 2 3 ++ Move.steps 1 3

theorem Run.marker_of_current_of_lateClearing :
    (idle.play (fun _ _ => True) lateClearing).2.AtRest ∧
    (idle.play (fun _ _ => True) lateClearing).2.gateway.hub.registry.current "alice" =
      some (Hub.sessionOf "alice" 2).id ∧
    "alice" ∈ (idle.play (fun _ _ => True) lateClearing).2.gateway.presence.online := by
  have hrest : (idle.play (fun _ _ => True) lateClearing).2.AtRest := by decide
  have hcurrent : (idle.play (fun _ _ => True) lateClearing).2.gateway.hub.registry.current
      "alice" = some (Hub.sessionOf "alice" 2).id := by decide
  exact ⟨hrest, hcurrent, Run.marker_of_current (Run.of_play lateClearing) rfl rfl hrest hcurrent⟩

end Traffic

end RoomRelay
