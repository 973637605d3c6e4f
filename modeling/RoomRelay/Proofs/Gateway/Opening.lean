import RoomRelay.Proofs.Gateway.Prospect
import RoomRelay.Proofs.Gateway.Traffic
import RoomRelay.Proofs.Hub.Standing

/-!
# How errands open

An errand touches the registry once, with its first call, and what it does after that depends on the
reply alone. So the calls of all errands at work are acts on the hub, one for each errand, with
notes and questions between them.

## Main definitions

* `Call.act?` — the act on the hub that a call is
* `Errand.opening`, `Errand.resume` — the first call of an errand, and what it goes on with
* `Task.Opens` — a task has all before it, or its first call behind it

## Main results

* `Gateway.Answers.onHub` — a call is its act on the hub, or leaves the hub alone
* `Gateway.Answers.registered_or_gone`, `Gateway.Answers.gone_of_refused` — whoever was to be
  registered is so, or is gone
* `Errand.sparesHub_resume`, `Traffic.Step.opens` — the registry is touched by the first call only
-/

namespace RoomRelay

open Routine

/-! ### Calls as acts -/

/-- The act on the hub that a call is, if it is one. -/
def Call.act? : Call → Option Hub.Act
  | enroll session => some (.enroll session)
  | withdraw session => some (.withdraw session)
  | join id roomId => some (.join id roomId)
  | leave id roomId => some (.leave id roomId)
  | broadcast envelope => some (.broadcast envelope)
  | drain => some .drain
  | isPresent _ | isClosed _ | presence _ | storage _ | now | note _ => none

/-- The call makes a note. -/
def Call.IsNote : Call → Prop
  | note _ => True
  | _ => False

namespace Call

variable {request : Call} {session : Session} {id : SessionId}

theorem act?_eq_enroll : request.act? = some (.enroll session) ↔ request = .enroll session := by
  cases request <;> simp [act?]

theorem act?_ne_handle : request.act? ≠ some (.handle id) := by
  cases request <;> simp [act?]

end Call

namespace Gateway

variable {g g' : Gateway} {request : Call} {reply : request.Reply} {id : SessionId}

/-- A call is its act on the hub, or leaves the hub alone. -/
theorem Answers.onHub (h : g.Answers request reply g') :
    (∃ act, request.act? = some act ∧ Hub.Step g.hub act g'.hub) ∨
      (request.act? = none ∧ g'.hub = g.hub) := by
  cases h with
  | shuffled perm => exact Or.inl ⟨_, rfl, .broadcast perm⟩
  | plain =>
    cases request with
    | enroll => exact Or.inl ⟨_, rfl, .enroll⟩
    | withdraw => exact Or.inl ⟨_, rfl, .withdraw⟩
    | join => exact Or.inl ⟨_, rfl, .join⟩
    | leave => exact Or.inl ⟨_, rfl, .leave⟩
    | broadcast => exact Or.inl ⟨_, rfl, .broadcast (.refl _)⟩
    | drain => exact Or.inl ⟨_, rfl, .drain⟩
    | storage request =>
      refine Or.inr ⟨rfl, ?_⟩
      cases request with
      | touch roomId => exact hub_touch
      | _ => rfl
    | isPresent | isClosed | presence | now | note => exact Or.inr ⟨rfl, rfl⟩

/-- No call opens a queue, and only one that is to register a session brings it back. -/
theorem Answers.gone (h : g.Answers request reply g') (hi : g.hub.registry.Indexed)
    (hgone : Hub.Gone id g.hub) (hother : ∀ session, request = .enroll session → session.id ≠ id) :
    Hub.Gone id g'.hub := by
  rcases h.onHub with ⟨act, hact, step⟩ | ⟨-, he⟩
  · refine step.gone hi hgone ?_ ?_
    · rintro session rfl
      exact hother session (Call.act?_eq_enroll.mp hact)
    · rintro rfl
      exact absurd hact Call.act?_ne_handle
  · rwa [he]

/-- Whoever is registered or gone is so after a call, and so is whom the call was to register. -/
theorem Answers.registered_or_gone (h : g.Answers request reply g')
    (hi : g.hub.registry.Indexed)
    (hin : (g.hub.registry.contains id = true ∨ Hub.Gone id g.hub) ∨
      ∃ session, request = .enroll session ∧ session.id = id) :
    g'.hub.registry.contains id = true ∨ Hub.Gone id g'.hub := by
  -- The call that is to register the session decides; any other one leaves it registered or gone.
  by_cases hself : ∃ session, request = .enroll session ∧ session.id = id
  · obtain ⟨session, rfl, rfl⟩ := hself
    cases h
    exact Hub.registered_or_gone_enroll session hi
  · have hbefore := hin.resolve_right hself
    rcases h.onHub with ⟨act, hact, step⟩ | ⟨-, he⟩
    · refine step.registered_or_gone hi hbefore ?_ ?_
      · rintro session rfl hid
        exact hself ⟨session, Call.act?_eq_enroll.mp hact, hid⟩
      · rintro rfl
        exact absurd hact Call.act?_ne_handle
    · rwa [he]

/-- A session that is turned away is gone. -/
theorem Answers.gone_of_refused {session : Session} (h : g.Answers (.enroll session) .refused g')
    (hi : g.hub.registry.Indexed) : Hub.Gone session.id g'.hub := by
  have hi' := h.indexed hi
  have hclosed : g'.hub.registry.closed = true := by
    refine h.closed ?_
    -- Cases on the answer need a reply that is a variable.
    generalize hreply : Admission.refused = reply at h
    cases h
    exact Hub.enroll_eq_refused_iff.mp hreply.symm
  have hin := h.registered_or_gone hi (Or.inr ⟨session, rfl, rfl⟩)
  refine hin.resolve_left ?_
  -- Nobody is registered at a closed hub.
  rw [Registry.contains, (hi'.closed_empty hclosed).2.1]
  simp [Table.contains]

end Gateway

/-! ### The first call of an errand -/

namespace Errand

/-- The call that an errand begins with. -/
def opening : Errand → Call
  | register session => .enroll session
  | unregister session => .withdraw session
  | join session roomId => .join session.id roomId
  | leave session roomId => .leave session.id roomId
  | broadcast envelope => .broadcast envelope
  | shutdown => .drain

/-- What an errand goes on with. -/
def resume : (errand : Errand) → errand.opening.Reply → Routine errand.Result
  | register session => afterEnroll session
  | unregister session => afterWithdraw session
  | join _ _ => fun joined => note .roomJoined >>= fun _ => done joined
  | leave _ _ => fun left => note .roomLeft >>= fun _ => done left
  | broadcast _ => fun report => noteTimes .queueOverflow report.overflowed >>= fun _ => done report
  | shutdown => fun sessions =>
    markAllOffline (sessions.map (·.userId)).eraseDups >>= fun _ =>
      note .hubShutDown >>= fun _ => done sessions.length

theorem routine_eq (errand : Errand) : errand.routine = .call errand.opening errand.resume := by
  cases errand with
  | register session => exact register_eq session
  | unregister session => exact unregister_eq session
  | _ => rfl

theorem act?_opening (errand : Errand) : errand.opening.act? ≠ none := by
  cases errand <;> simp [opening, Call.act?]

end Errand

namespace Routine

/-- The routine leaves the hub alone. -/
abbrev SparesHub {α : Type} (r : Routine α) : Prop := r.Within (·.act? = none) fun _ => True

theorem sparesHub_note (n : Note) : (note n).SparesHub := ⟨rfl, fun _ => trivial⟩

theorem sparesHub_noteIf (reason : Bool) (n : Note) : (noteIf reason n).SparesHub := by
  cases reason with
  | false => exact trivial
  | true => exact sparesHub_note n

theorem sparesHub_noteTimes (n : Note) (count : Nat) : (noteTimes n count).SparesHub := by
  induction count with
  | zero => exact trivial
  | succ count ih => exact (sparesHub_note n).bind fun _ _ => ih

theorem sparesHub_tryMark (call : PresenceCall) (failed : Note) :
    (tryMark call failed).SparesHub := by
  refine ⟨rfl, fun reply => ?_⟩
  cases reply with
  | ok _ => exact trivial
  | error _ => exact sparesHub_note failed

theorem sparesHub_markAllOffline (userIds : List String) : (markAllOffline userIds).SparesHub := by
  induction userIds with
  | nil => exact trivial
  | cons userId userIds ih => exact (sparesHub_tryMark _ _).bind fun _ _ => ih

theorem sparesHub_clearMarker (userId : String) : (clearMarker userId).SparesHub := by
  refine (sparesHub_tryMark _ _).bind fun _ _ => ⟨rfl, fun present => ?_⟩
  cases present with
  | false => exact trivial
  | true => exact sparesHub_tryMark _ _

end Routine

/-- Behind its first call an errand leaves the hub alone. -/
theorem Errand.sparesHub_resume (errand : Errand) (reply : errand.opening.Reply) :
    (errand.resume reply).SparesHub := by
  cases errand with
  | register session =>
    cases reply with
    | refused => exact (sparesHub_note _).bind fun _ _ => trivial
    | admitted evicted =>
      refine (sparesHub_noteIf _ _).bind fun _ _ => (sparesHub_tryMark _ _).bind fun _ _ => ?_
      exact (sparesHub_note _).bind fun _ _ => trivial
  | unregister session =>
    refine (sparesHub_noteIf _ _).bind fun _ _ => Within.bind ?_ fun _ (_ : True) => trivial
    cases reply.superseded with
    | false => exact sparesHub_clearMarker _
    | true => exact trivial
  | join | leave => exact (sparesHub_note _).bind fun _ _ => trivial
  | broadcast => exact (sparesHub_noteTimes _ _).bind fun _ _ => trivial
  | shutdown =>
    exact (sparesHub_markAllOffline _).bind fun _ _ => (sparesHub_note _).bind fun _ _ => trivial

/-! ### Tasks -/

/-- All of the task is still to be done, or its first call is behind it. -/
def Task.Opens (task : Task) : Prop :=
  task.rest = task.errand.routine ∨ task.rest.SparesHub

namespace Task

variable {errand : Errand} {request : Call} {next : request.Reply → Routine errand.Result}
variable {reply : request.Reply}

/-- A task that is going to act on the hub is about to begin. -/
theorem Opens.eq_routine (h : Opens ⟨errand, .call request next⟩) (hact : request.act? ≠ none) :
    .call request next = errand.routine := by
  rcases h with hstart | hlater
  · exact hstart
  · exact absurd hlater.1 hact

theorem Opens.opening_eq (h : Opens ⟨errand, .call request next⟩) (hact : request.act? ≠ none) :
    request = errand.opening := by
  have heq := h.eq_routine hact
  rw [Errand.routine_eq] at heq
  exact (Routine.call.inj heq).1

theorem Opens.answered (h : Opens ⟨errand, .call request next⟩) : Opens ⟨errand, next reply⟩ := by
  rcases h with hstart | hlater
  -- Either this was the first call, or that is behind the task already.
  · have heq : .call request next = Routine.call errand.opening errand.resume :=
      hstart.trans errand.routine_eq
    obtain ⟨rfl, hnext⟩ := Routine.call.inj heq
    obtain rfl := eq_of_heq hnext
    exact Or.inr (errand.sparesHub_resume reply)
  · exact Or.inr (hlater.2 reply)

end Task

namespace Traffic

variable {may : Traffic → Errand → Prop} {t t' start : Traffic} {event : Event}

theorem Step.opens (step : Step may t event t') (h : ∀ task ∈ t.tasks, task.Opens) :
    ∀ task ∈ t'.tasks, task.Opens := by
  intro task htask
  cases step with
  | begin =>
    rcases List.mem_append.mp htask with hold | hnew
    · exact h task hold
    · obtain rfl := List.mem_singleton.mp hnew
      exact Or.inl rfl
  | call answers =>
    rcases mem_tasks_iff.mp htask with rfl | hother
    · exact (h _ (mem_tasks_iff.mpr (Or.inl rfl))).answered
    · exact h task (mem_tasks_iff.mpr (Or.inr hother))
  | handle => exact h task htask

/-- Whatever may be asked, each task acts on the hub with its first call only. -/
theorem Run.opens {past : List (Moment Traffic Event)} (run : Run may start past t)
    (idle : start.tasks = []) : ∀ task ∈ t.tasks, task.Opens := by
  refine run.preserves (P := fun t => ∀ task ∈ t.tasks, task.Opens) Step.opens ?_
  rw [idle]
  exact fun task htask => absurd htask (by simp)

/-- The first call of an errand, and what is left of the errand after it. -/
theorem Step.of_opening {errand : Errand} (step : Step may t (.call errand errand.opening) t')
    (h : ∀ task ∈ t.tasks, task.Opens) :
    ∃ front reply back, t.gateway.Answers errand.opening reply t'.gateway ∧
      t.tasks = front ++ ⟨errand, errand.routine⟩ :: back ∧
      t'.tasks = front ++ ⟨errand, errand.resume reply⟩ :: back := by
  cases step with
  | @call g g' front back errand _ next reply answers =>
    -- Behind its first call the task would leave the hub alone, so this is the first one.
    have hopens := h _ (mem_tasks_iff.mpr (Or.inl rfl))
    have heq := hopens.eq_routine errand.act?_opening
    have hnext := heq
    rw [errand.routine_eq] at hnext
    obtain rfl := eq_of_heq (Routine.call.inj hnext).2
    exact ⟨front, reply, back, answers, by rw [heq], rfl⟩

end Traffic

end RoomRelay
