import Mathlib.Data.List.Pairwise
import RoomRelay.Proofs.Gateway.Prospect
import RoomRelay.Proofs.Gateway.Traffic

/-!
# Connections come and go

A connection asks for its session to be registered, once. If that was possible it asks for the
session to be taken out again, once, when it ends. Everything else may be asked at any time. In a
run of such connections each registered session belongs to a connection that has still to take it
out, however the calls of all errands mix.

## Main definitions

* `Traffic.Orderly` — when a connection may ask for what
* `Task.Admitted`, `Task.Sound` — what is left of a task agrees with what was asked
* `Traffic.Live` — a session that is still to be taken out
* `Traffic.Disciplined` — the invariant of orderly traffic: who is registered is still to be taken
  out

## Main results

* `Traffic.Disciplined.step`, `Traffic.Run.disciplined` — orderly traffic stays disciplined
-/

namespace RoomRelay

variable {g g' : Gateway} {before after : List Task} {errand : Errand} {request : Call}
variable {next : request.Reply → Routine errand.Result} {reply : request.Reply}
variable {session other : Session} {task : Task} {userId : String}

/-! ### Orderly traffic -/

/-- The session that a task has registered. -/
def Task.registered? : Task → Option Session
  | ⟨.register session, .done true⟩ => some session
  | _ => none

theorem Task.eq_of_registered? (h : task.registered? = some session) :
    task = ⟨.register session, .done true⟩ := by
  unfold registered? at h
  split at h
  · rw [Option.some_inj.mp h]
  · exact absurd h (by simp)

namespace Traffic

/-- A connection may ask for a session of its own to be registered, and, once it is, for the session
to be taken out. Whatever else there is to ask may be asked at any time. -/
def Orderly (t : Traffic) : Errand → Prop
  | .register session => ∀ task ∈ t.tasks, task.errand.enrollee?.map (·.id) ≠ some session.id
  | .unregister session =>
    (∃ task ∈ t.tasks, task.registered? = some session) ∧
      ∀ task ∈ t.tasks, task.errand ≠ .unregister session
  | _ => True

instance (t : Traffic) : (errand : Errand) → Decidable (t.Orderly errand)
  | .register _ => inferInstanceAs (Decidable (∀ task ∈ t.tasks, _))
  | .unregister _ => inferInstanceAs (Decidable (_ ∧ _))
  | .join _ _ | .leave _ _ | .broadcast _ | .shutdown => .isTrue trivial

end Traffic

/-! ### What is left of a task -/

/-- The call registers no session, and sets the markers of certain identities only. -/
def Call.Marks (marked : String → Prop) : Call → Prop
  | .enroll _ => False
  | .presence (.setOnline userId) => marked userId
  | _ => True

theorem Call.IsBystander.marks {marked : String → Prop} (h : request.IsBystander) :
    request.Marks marked := by
  cases request with
  | enroll => exact h.elim
  | presence => exact h.elim
  | _ => exact trivial

/-- The task has registered its session, and is going to say so. -/
inductive Task.Admitted (session : Session) : Task → Prop
  | intro {rest : Routine Bool}
    (within : rest.Within (Call.Marks (· = session.userId)) (· = true)) :
    Admitted session ⟨.register session, rest⟩

/-- What is left of a task agrees with what was asked: a session is registered by the first call,
and its marker is set only if it was admitted; taking out a session may set markers again; nothing
else does either. -/
def Task.Sound : Task → Prop
  | ⟨.register session, rest⟩ =>
    rest = RoomRelay.register session ∨
      rest.Within (Call.Marks fun _ => False) (· = false) ∨
      rest.Within (Call.Marks (· = session.userId)) (· = true)
  | ⟨.unregister _, rest⟩ => rest.Within (Call.Marks fun _ => True) fun _ => True
  | ⟨_, rest⟩ => rest.Within (Call.Marks fun _ => False) fun _ => True

namespace Routine

variable {α : Type} {marked : String → Prop}

theorem IsBystander.within {r : Routine α} (h : r.IsBystander) :
    r.Within (Call.Marks marked) fun _ => True :=
  h.mono (fun _ hc => hc.marks) fun _ => id

theorem within_markOnline (h : marked userId) :
    (markOnline userId).Within (Call.Marks marked) fun _ => True := by
  refine ⟨h, fun reply => ?_⟩
  cases reply with
  | ok _ => exact trivial
  | error _ => exact (isBystander_note _).within

theorem within_markOffline : (markOffline userId).Within (Call.Marks marked) fun _ => True := by
  refine ⟨trivial, fun reply => ?_⟩
  cases reply with
  | ok _ => exact trivial
  | error _ => exact (isBystander_note _).within

theorem within_clearMarker :
    (clearMarker userId).Within (Call.Marks fun _ => True) fun _ => True := by
  refine within_markOffline.bind fun _ _ => ⟨trivial, fun present => ?_⟩
  cases present with
  | false => exact trivial
  | true => exact within_markOnline trivial

theorem within_markAllOffline (userIds : List String) :
    (markAllOffline userIds).Within (Call.Marks marked) fun _ => True := by
  induction userIds with
  | nil => exact trivial
  | cons userId userIds ih => exact within_markOffline.bind fun _ _ => ih

theorem within_shutdown : shutdown.Within (Call.Marks marked) fun _ => True :=
  ⟨trivial, fun _ => (within_markAllOffline _).bind fun _ _ =>
    (isBystander_note _).within.bind fun _ _ => trivial⟩

theorem within_unregister :
    (unregister session).Within (Call.Marks fun _ => True) fun _ => True := by
  have hclear : ∀ superseded : Bool,
      (if superseded then done () else clearMarker session.userId).Within
        (Call.Marks fun _ => True) fun _ => True := by
    intro superseded
    cases superseded with
    | false => exact within_clearMarker
    | true => exact trivial
  rw [unregister_eq]
  exact ⟨trivial, fun outcome => (isBystander_noteIf _ _).within.bind fun _ _ =>
    (hclear outcome.superseded).bind fun _ _ => trivial⟩

theorem within_afterEnroll_refused :
    (afterEnroll session .refused).Within (Call.Marks marked) (· = false) :=
  (isBystander_note _).within.bind fun _ _ => within_done.mpr rfl

theorem within_afterEnroll_admitted (evicted : Option Session) :
    (afterEnroll session (.admitted evicted)).Within (Call.Marks (· = session.userId))
      (· = true) := by
  have hmark : (markOnline session.userId).Within (Call.Marks (· = session.userId))
      fun _ => True := within_markOnline rfl
  refine (isBystander_noteIf _ _).within.bind fun _ _ => hmark.bind fun _ _ => ?_
  exact (isBystander_note _).within.bind fun _ _ => within_done.mpr rfl

end Routine

open Routine

theorem Errand.sound (errand : Errand) : Task.Sound ⟨errand, errand.routine⟩ := by
  cases errand with
  | register session => exact Or.inl rfl
  | unregister session => exact within_unregister
  | join session roomId => exact (isBystander_joinRoom session roomId).within
  | leave session roomId => exact (isBystander_leaveRoom session roomId).within
  | broadcast envelope => exact (isBystander_broadcast envelope).within
  | shutdown => exact within_shutdown

namespace Task

/-- A task that is about to register a session has only just begun. -/
theorem Sound.of_enroll {next : Admission → Routine errand.Result}
    (h : Sound ⟨errand, .call (.enroll session) next⟩) (admission : Admission) :
    (⟨errand, next admission⟩ : Task) = ⟨.register session, afterEnroll session admission⟩ := by
  cases errand with
  | register other =>
    rcases h with hstart | hrefused | hadmitted
    · rw [register_eq] at hstart
      obtain ⟨hrequest, hnext⟩ := Routine.call.inj hstart
      obtain rfl := Call.enroll.inj hrequest
      rw [eq_of_heq hnext]
    · exact hrefused.1.elim
    · exact hadmitted.1.elim
  | _ => exact h.1.elim

/-- A task that is about to set a marker has registered a session of that identity, or is taking one
out. -/
theorem Sound.of_setOnline {next : Except DomainFailure Unit → Routine errand.Result}
    (h : Sound ⟨errand, .call (.presence (.setOnline userId)) next⟩) :
    (∃ session, session.userId = userId ∧
      Admitted session ⟨errand, .call (.presence (.setOnline userId)) next⟩) ∨
    ∃ session, errand = .unregister session := by
  cases errand with
  | register other =>
    rcases h with hstart | hrefused | hadmitted
    · rw [register_eq] at hstart
      exact absurd (Routine.call.inj hstart).1 (by simp)
    · exact hrefused.1.elim
    · exact Or.inl ⟨other, hadmitted.1.symm, .intro hadmitted⟩
  | unregister other => exact Or.inr ⟨other, rfl⟩
  | _ => exact h.1.elim

theorem Sound.answered (h : Sound ⟨errand, .call request next⟩) : Sound ⟨errand, next reply⟩ := by
  cases errand with
  | register other =>
    rcases h with hstart | hrefused | hadmitted
    · rw [register_eq] at hstart
      obtain ⟨rfl, hnext⟩ := Routine.call.inj hstart
      obtain rfl := eq_of_heq hnext
      cases reply with
      | refused => exact Or.inr (Or.inl within_afterEnroll_refused)
      | admitted evicted => exact Or.inr (Or.inr (within_afterEnroll_admitted evicted))
    · exact Or.inr (Or.inl (hrefused.2 reply))
    · exact Or.inr (Or.inr (hadmitted.2 reply))
  | _ => exact h.2 reply

theorem Admitted.answered (h : Admitted session ⟨errand, .call request next⟩) :
    Admitted session ⟨errand, next reply⟩ := by
  cases h with
  | intro hwithin => exact .intro (hwithin.2 reply)

theorem Admitted.errand_eq (h : task.Admitted session) : task.errand = .register session := by
  cases h
  rfl

end Task

/-! ### The invariant -/

/-- Errands that would register sessions of two identifiers. -/
def Errand.Apart (a b : Errand) : Prop :=
  ∀ s t, a = .register s → b = .register t → s.id ≠ t.id

instance : Std.Symm Errand.Apart where
  symm _ _ h s t hs ht := (h t s ht hs).symm

namespace Traffic

/-- The session has been admitted, and whoever is to take it out has not begun with it. -/
structure Live (session : Session) (t : Traffic) : Prop where
  admitted : ∃ task ∈ t.tasks, task.Admitted session
  untouched : ∀ task ∈ t.tasks, task.errand = .unregister session →
    task = ⟨.unregister session, RoomRelay.unregister session⟩

/-- What orderly traffic keeps: the tables of the registry agree, no session is registered twice,
tasks do what they were asked for, only sessions that are done registering are taken out, and who is
registered is still to be taken out. -/
structure Disciplined (t : Traffic) : Prop where
  coherent : t.gateway.hub.registry.Coherent
  apart : (t.tasks.map Task.errand).Pairwise Errand.Apart
  sound : ∀ task ∈ t.tasks, task.Sound
  paired : ∀ task ∈ t.tasks, ∀ session, task.errand = .unregister session →
    ⟨.register session, .done true⟩ ∈ t.tasks
  live : ∀ id session, t.gateway.hub.registry.sessions.get? id = some session → Live session t

variable {t t' start : Traffic} {event : Event}

/-- Two tasks that were to register a session of one identifier are the same. -/
theorem Disciplined.eq_of_id_eq (h : Disciplined t) {a b : Task} (ha : a ∈ t.tasks)
    (hb : b ∈ t.tasks) (hs : a.errand = .register session) (ho : b.errand = .register other)
    (hid : session.id = other.id) : a = b := by
  by_contra hne
  have : Std.Symm fun a b : Task => a.errand.Apart b.errand :=
    ⟨fun _ _ h => Std.Symm.symm _ _ h⟩
  exact (List.pairwise_map.mp h.apart).forall ha hb hne session other hs ho hid

/-- As long as a task is registering a session, nobody is asked to take it out. -/
theorem Disciplined.not_unregister (h : Disciplined t) (htask : task ∈ t.tasks)
    (hs : task.errand = .register session) (hdone : ¬ task.IsDone) :
    ∀ other ∈ t.tasks, other.errand ≠ .unregister session := by
  intro other hother he
  have hpair := h.paired other hother session he
  obtain rfl := h.eq_of_id_eq htask hpair hs rfl rfl
  exact hdone trivial

/-- An errand that is asked leaves a live session so. -/
theorem Live.begin (h : Live session t) :
    Live session { t with tasks := t.tasks ++ [⟨errand, errand.routine⟩] } := by
  constructor
  · obtain ⟨task, htask, ha⟩ := h.admitted
    exact ⟨task, List.mem_append_left _ htask, ha⟩
  · intro task htask he
    rcases List.mem_append.mp htask with hold | hnew
    · exact h.untouched task hold he
    · obtain rfl := List.mem_singleton.mp hnew
      obtain rfl : errand = .unregister session := he
      rfl

/-- A call leaves a live session so, unless it begins to take the session out. -/
theorem Live.call (h : Live session ⟨g, before ++ ⟨errand, .call request next⟩ :: after⟩) :
    Live session ⟨g', before ++ ⟨errand, next reply⟩ :: after⟩ ∨
    (⟨errand, .call request next⟩ : Task) =
      ⟨.unregister session, RoomRelay.unregister session⟩ := by
  by_cases he : errand = .unregister session
  · exact Or.inr (h.untouched _ (mem_tasks_iff.mpr (Or.inl rfl)) he)
  · refine Or.inl ⟨?_, ?_⟩
    · obtain ⟨task, htask, ha⟩ := h.admitted
      rcases mem_tasks_iff.mp htask with rfl | hother
      · exact ⟨_, mem_tasks_iff.mpr (Or.inl rfl), ha.answered⟩
      · exact ⟨task, mem_tasks_iff.mpr (Or.inr hother), ha⟩
    · intro task htask hu
      rcases mem_tasks_iff.mp htask with rfl | hother
      · exact absurd hu he
      · exact h.untouched task (mem_tasks_iff.mpr (Or.inr hother)) hu

/-- A session that has been admitted is live as long as its task has calls to make. -/
theorem Disciplined.live_of_admitted
    (h : Disciplined ⟨g, before ++ ⟨errand, .call request next⟩ :: after⟩)
    (ha : Task.Admitted session ⟨errand, next reply⟩) :
    Live session ⟨g', before ++ ⟨errand, next reply⟩ :: after⟩ := by
  have hmem : (⟨errand, .call request next⟩ : Task) ∈
      before ++ ⟨errand, .call request next⟩ :: after := mem_tasks_iff.mpr (Or.inl rfl)
  have herrand : errand = .register session := ha.errand_eq
  refine ⟨⟨_, mem_tasks_iff.mpr (Or.inl rfl), ha⟩, ?_⟩
  intro task htask he
  rcases mem_tasks_iff.mp htask with rfl | hother
  · exact absurd (herrand.symm.trans he) (by simp)
  · exact absurd he (h.not_unregister hmem herrand id task (mem_tasks_iff.mpr (Or.inr hother)))

/-- The call that begins to take a session out, and what it goes on with. -/
theorem call_eq_of_unregister (h : (⟨errand, .call request next⟩ : Task) =
      ⟨.unregister session, RoomRelay.unregister session⟩) :
    ∃ hrequest : request = .withdraw session, ∀ outcome : Withdrawal,
      (⟨errand, next (hrequest ▸ outcome)⟩ : Task) =
        ⟨.unregister session, afterWithdraw session outcome⟩ := by
  obtain ⟨rfl, hrest⟩ := Task.mk.inj h
  rw [unregister_eq] at hrest
  obtain ⟨rfl, hnext⟩ := Routine.call.inj (eq_of_heq hrest)
  obtain rfl := eq_of_heq hnext
  exact ⟨rfl, fun _ => rfl⟩

theorem Disciplined.begin (h : Disciplined t) (allowed : t.Orderly errand) :
    Disciplined { t with tasks := t.tasks ++ [⟨errand, errand.routine⟩] } := by
  refine ⟨h.coherent, ?_, ?_, ?_, fun id session hs => (h.live id session hs).begin⟩
  · -- A session that is to be registered is new among those that were.
    rw [List.map_append, List.pairwise_append]
    refine ⟨h.apart, List.pairwise_singleton _ _, ?_⟩
    intro a ha b hb s u hs hu
    obtain ⟨task, htask, rfl⟩ := List.mem_map.mp ha
    obtain rfl : b = errand := by simpa using hb
    subst hu
    have hfresh := allowed task htask
    rw [hs] at hfresh
    exact fun hid => hfresh (congrArg some hid)
  · intro task htask
    rcases List.mem_append.mp htask with hold | hnew
    · exact h.sound task hold
    · obtain rfl := List.mem_singleton.mp hnew
      exact errand.sound
  · intro task htask session he
    refine List.mem_append_left _ ?_
    rcases List.mem_append.mp htask with hold | hnew
    · exact h.paired task hold session he
    · obtain rfl := List.mem_singleton.mp hnew
      obtain rfl : errand = .unregister session := he
      obtain ⟨registered, hregistered, heq⟩ := allowed.1
      rwa [← Task.eq_of_registered? heq]

theorem Disciplined.call
    (h : Disciplined ⟨g, before ++ ⟨errand, .call request next⟩ :: after⟩)
    (answers : g.Answers request reply g') :
    Disciplined ⟨g', before ++ ⟨errand, next reply⟩ :: after⟩ := by
  have hmem : (⟨errand, .call request next⟩ : Task) ∈
      before ++ ⟨errand, .call request next⟩ :: after := mem_tasks_iff.mpr (Or.inl rfl)
  -- A session is registered by its own task, so it fits whoever has the same identifier.
  have hcoherent : g'.hub.registry.Coherent := by
    refine answers.coherent h.coherent ?_
    rintro session rfl other hother
    have herrand : errand = .register session :=
      congrArg Task.errand ((h.sound _ hmem).of_enroll .refused)
    obtain ⟨task, htask, ha⟩ := (h.live _ _ hother).admitted
    have hsame := h.eq_of_id_eq htask hmem ha.errand_eq herrand (h.coherent.session_id hother)
    have hregister := ha.errand_eq.symm.trans ((congrArg Task.errand hsame).trans herrand)
    rw [Errand.register.inj hregister]
  refine ⟨hcoherent, ?_, ?_, ?_, ?_⟩
  · have hold := h.apart
    rw [List.map_append, List.map_cons] at hold ⊢
    exact hold
  · intro task htask
    rcases mem_tasks_iff.mp htask with rfl | hother
    · exact (h.sound _ hmem).answered
    · exact h.sound task (mem_tasks_iff.mpr (Or.inr hother))
  · intro task htask session he
    -- A task that is done is not the one that goes on.
    have hpair : ⟨.register session, .done true⟩ ∈
        before ++ ⟨errand, .call request next⟩ :: after := by
      rcases mem_tasks_iff.mp htask with rfl | hother
      · exact h.paired _ hmem session he
      · exact h.paired task (mem_tasks_iff.mpr (Or.inr hother)) session he
    rcases mem_tasks_iff.mp hpair with heq | hother
    · obtain ⟨rfl, hrest⟩ := Task.mk.inj heq
      exact absurd (eq_of_heq hrest) (by simp)
    · exact mem_tasks_iff.mpr (Or.inr hother)
  · intro id session hs
    rcases answers.registered hs with hold | hadmits
    · rcases (h.live id session hold).call with hlive | hbegins
      · exact hlive
      · -- Whoever is taken out is not registered any more.
        obtain ⟨rfl, -⟩ := call_eq_of_unregister hbegins
        have hgone := answers.withdrawn.1
        rw [hcoherent.session_id hs, ← Bool.not_eq_true, Registry.contains_iff] at hgone
        exact absurd ⟨session, hs⟩ hgone
    · cases hadmits with
      | admitted evicted =>
        refine h.live_of_admitted ?_
        rw [(h.sound _ hmem).of_enroll (.admitted evicted)]
        exact .intro (within_afterEnroll_admitted evicted)

/-- Orderly traffic stays disciplined. -/
theorem Disciplined.step (h : Disciplined t) (step : Step Orderly t event t') :
    Disciplined t' := by
  cases step with
  | begin allowed => exact h.begin allowed
  | call answers => exact h.call answers
  | handle => exact ⟨h.coherent, h.apart, h.sound, h.paired, fun id session hs =>
      ⟨(h.live id session hs).admitted, (h.live id session hs).untouched⟩⟩

theorem disciplined_start (empty : start.gateway.hub.registry = {}) (idle : start.tasks = []) :
    Disciplined start := by
  refine ⟨?_, ?_, ?_, ?_, ?_⟩
  · rw [empty]
    exact Registry.coherent_empty
  · rw [idle]
    exact .nil
  · rw [idle]
    exact fun task htask => absurd htask (by simp)
  · rw [idle]
    exact fun task htask => absurd htask (by simp)
  · intro id session hs
    rw [empty] at hs
    exact absurd hs (by simp)

theorem Run.disciplined {past : List (Moment Traffic Event)} (run : Run Orderly start past t)
    (empty : start.gateway.hub.registry = {}) (idle : start.tasks = []) : Disciplined t :=
  run.preserves (fun step h => h.step step) (disciplined_start empty idle)

end Traffic

end RoomRelay
