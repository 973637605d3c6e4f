import RoomRelay.Gateway.Registration
import RoomRelay.Gateway.State
import RoomRelay.Proofs.Hub.Act
import RoomRelay.Proofs.Presence.Typing

/-!
# Errands side by side

Many connections ask the hub for something at the same time. Each errand is a routine, and the calls
of all routines at work come one after the other in any order. Between them, queues may be made,
emptied and dropped. This file gives the system of a gateway with all its errands as a step
relation, and says what one call does to the hub and to the markers of identities.

## Main definitions

* `Errand`, `Task` — what can be asked of the hub, and how far it has come
* `Gateway.Answers` — how a call may be answered
* `Traffic`, `Traffic.Step`, `Traffic.Run` — a gateway with all its tasks, and runs
* `Traffic.play` — a run computed from moves

## Main results

* `Gateway.Answers.hub_cases` — a call is an act on the hub or leaves it alone
* `Gateway.Answers.mem_online_iff` — a call sets a marker, clears it or leaves it alone
* `Gateway.Answers.registered`, `Gateway.Answers.isPresent` — nobody appears unless admitted
-/

namespace RoomRelay

/-! ### Errands -/

/-- What can be asked of the hub. -/
inductive Errand
  | register (session : Session)
  | unregister (session : Session)
  | join (session : Session) (roomId : String)
  | leave (session : Session) (roomId : String)
  | broadcast (envelope : Envelope)
  | shutdown
  deriving DecidableEq

namespace Errand

/-- What an errand ends with. -/
abbrev Result : Errand → Type
  | register _ | unregister _ | join _ _ | leave _ _ => Bool
  | broadcast _ => BroadcastReport
  | shutdown => Nat

/-- How an errand is done. -/
def routine : (errand : Errand) → Routine errand.Result
  | register session => RoomRelay.register session
  | unregister session => RoomRelay.unregister session
  | join session roomId => joinRoom session roomId
  | leave session roomId => leaveRoom session roomId
  | broadcast envelope => RoomRelay.broadcast envelope
  | shutdown => RoomRelay.shutdown

/-- The session that an errand is to register. -/
def enrollee? : Errand → Option Session
  | register session => some session
  | _ => none

end Errand

/-- An errand with what is left to do. -/
structure Task where
  /-- What was asked. -/
  errand : Errand
  /-- What is left. -/
  rest : Routine errand.Result

/-- Nothing is left to do. -/
def Task.IsDone : Task → Prop
  | ⟨_, .done _⟩ => True
  | ⟨_, .call _ _⟩ => False

instance : DecidablePred Task.IsDone
  | ⟨_, .done _⟩ => .isTrue trivial
  | ⟨_, .call _ _⟩ => .isFalse id

/-! ### Calls -/

namespace Gateway

variable {g g' : Gateway} {request : Call} {reply : request.Reply} {userId : String}
variable {id : SessionId} {session : Session}

/-- How a call may be answered, with the gateway after that: as the gateway answers it, or, if it is
a broadcast, with the members of the room in any other order. -/
inductive Answers (g : Gateway) : (request : Call) → request.Reply → Gateway → Prop
  | plain (request : Call) : g.Answers request (g.step request).1 (g.step request).2
  | shuffled {envelope : Envelope} {order : List Session}
    (perm : order.Perm (g.hub.registry.members envelope.roomId)) :
    g.Answers (.broadcast envelope) (g.hub.broadcastTo order envelope).1
      { g with hub := (g.hub.broadcastTo order envelope).2 }

theorem hub_touch {roomId : Uuid} : (g.touch roomId).hub = g.hub := by
  unfold touch
  split <;> rfl

theorem presence_touch {roomId : Uuid} : (g.touch roomId).presence = g.presence := by
  unfold touch
  split <;> rfl

/-- A call leaves the hub alone, or it is an act on the hub, which registers a session only if the
call asks for that. -/
theorem Answers.hub_cases (h : g.Answers request reply g') :
    g'.hub = g.hub ∨
    ∃ act, Hub.Step g.hub act g'.hub ∧ ∀ s, act = .enroll s → request = .enroll s := by
  cases h with
  | shuffled perm => exact Or.inr ⟨_, .broadcast perm, by simp⟩
  | plain =>
    cases request with
    | enroll s => exact Or.inr ⟨_, .enroll, by simp⟩
    | withdraw s => exact Or.inr ⟨_, .withdraw, by simp⟩
    | join id roomId => exact Or.inr ⟨_, .join, by simp⟩
    | leave id roomId => exact Or.inr ⟨_, .leave, by simp⟩
    | broadcast envelope => exact Or.inr ⟨_, .broadcast (.refl _), by simp⟩
    | drain => exact Or.inr ⟨_, .drain, by simp⟩
    | storage request =>
      cases request with
      | touch roomId => exact Or.inl hub_touch
      | _ => exact Or.inl rfl
    | isPresent | isClosed | presence | now | note => exact Or.inl rfl

theorem Answers.indexed (h : g.Answers request reply g') (hi : g.hub.registry.Indexed) :
    g'.hub.registry.Indexed := by
  rcases h.hub_cases with he | ⟨act, hstep, -⟩
  · rwa [he]
  · exact hstep.indexed hi

theorem Answers.coherent (h : g.Answers request reply g') (hc : g.hub.registry.Coherent)
    (hfits : ∀ s, request = .enroll s → g.hub.registry.Fits s) : g'.hub.registry.Coherent := by
  rcases h.hub_cases with he | ⟨act, hstep, hs⟩
  · rwa [he]
  · exact hstep.coherent hc fun s ha => hfits s (hs s ha)

theorem Answers.closed (h : g.Answers request reply g') (hc : g.hub.registry.closed = true) :
    g'.hub.registry.closed = true := by
  rcases h.hub_cases with he | ⟨act, hstep, -⟩
  · rwa [he]
  · exact hstep.closed hc

/-- The call registers the session, and it has been admitted. -/
inductive Admits (session : Session) : (request : Call) → request.Reply → Prop
  | admitted (evicted : Option Session) : Admits session (.enroll session) (.admitted evicted)

/-- A session that is to be registered is refused, and the registry stays as it is, or it is
admitted. -/
theorem Answers.enroll_cases {admission : Admission}
    (h : g.Answers (.enroll session) admission g') :
    (admission = .refused ∧ g'.hub.registry = g.hub.registry) ∨
      ∃ evicted, admission = .admitted evicted := by
  cases h
  simp only [Gateway.step, Hub.enroll]
  split
  · exact Or.inl ⟨rfl, Hub.registry_close⟩
  · split <;> exact Or.inr ⟨_, rfl⟩

/-- A session that is registered after a call was registered before, or has been admitted. -/
theorem Answers.registered (h : g.Answers request reply g')
    (hs : g'.hub.registry.sessions.get? id = some session) :
    g.hub.registry.sessions.get? id = some session ∨ Admits session request reply := by
  rcases h.hub_cases with he | ⟨act, hstep, hact⟩
  · rw [he] at hs
    exact Or.inl hs
  · rcases hstep.registered hs with hold | ha
    · exact Or.inl hold
    · obtain rfl := hact session ha
      rcases h.enroll_cases with ⟨-, he⟩ | ⟨evicted, rfl⟩
      · rw [he] at hs
        exact Or.inl hs
      · exact Or.inr (.admitted evicted)

/-- An identity that is present after a call was present before, or one of its sessions has been
admitted. -/
theorem Answers.isPresent (h : g.Answers request reply g') (hp : g'.hub.isPresent userId = true) :
    g.hub.isPresent userId = true ∨ ∃ s, Admits s request reply ∧ s.userId = userId := by
  rcases h.hub_cases with he | ⟨act, hstep, hact⟩
  · rw [he] at hp
    exact Or.inl hp
  · rcases hstep.isPresent hp with hold | ⟨s, ha, hu⟩
    · exact Or.inl hold
    · obtain rfl := hact s ha
      rcases h.enroll_cases with ⟨-, he⟩ | ⟨evicted, rfl⟩
      · rw [Hub.isPresent, he] at hp
        exact Or.inl hp
      · exact Or.inr ⟨s, .admitted evicted, hu⟩

theorem Answers.eq_isPresent {present : Bool} (h : g.Answers (.isPresent userId) present g') :
    present = g.hub.isPresent userId := by
  cases h
  rfl

theorem Answers.closed_of_drain {sessions : List Session} (h : g.Answers .drain sessions g') :
    g'.hub.registry.closed = true := by
  cases h
  exact congrArg Registry.closed Hub.registry_drain

/-- A session that was to be taken out is gone, and the reply tells whether its identity has a
session still. -/
theorem Answers.withdrawn {outcome : Withdrawal} (h : g.Answers (.withdraw session) outcome g') :
    g'.hub.registry.contains session.id = false ∧
      outcome.superseded = g'.hub.isPresent session.userId := by
  cases h
  refine ⟨Hub.contains_withdraw g.hub session, ?_⟩
  simp only [Gateway.step, Hub.withdraw]
  split <;> rfl

/-- Only the calls to the presence store change it. -/
theorem presence_step (h : ∀ c, request ≠ .presence c) :
    (g.step request).2.presence = g.presence := by
  cases request with
  | presence c => exact absurd rfl (h c)
  | storage request =>
    cases request with
    | touch roomId => exact presence_touch
    | _ => rfl
  | _ => rfl

/-- A call sets the marker of an identity, or clears it, or leaves it alone. -/
theorem Answers.mem_online_iff (h : g.Answers request reply g') :
    userId ∈ g'.presence.online ↔ request = .presence (.setOnline userId) ∨
      (request ≠ .presence (.setOffline userId) ∧ userId ∈ g.presence.online) := by
  cases h with
  | shuffled => simp
  | plain =>
    cases request with
    | presence c =>
      cases c with
      | setOnline other => simp [Gateway.step, mark, PresenceMemory.answer, eq_comm]
      | setOffline other => simp [Gateway.step, mark, PresenceMemory.answer, eq_comm]
      | listTyping roomId =>
        simp [Gateway.step, mark, PresenceMemory.answer]
      | removeTyping roomId other =>
        simp [Gateway.step, mark, PresenceMemory.answer]
      | isOnline | addTyping =>
        simp [Gateway.step, mark, PresenceMemory.answer, PresenceMemory.addTyping]
    | _ =>
      rw [presence_step (by simp)]
      simp

end Gateway

/-! ### Traffic -/

/-- A gateway with all errands that were ever asked of it. -/
structure Traffic where
  /-- The gateway. -/
  gateway : Gateway
  /-- The errands, in the order in which they were asked. -/
  tasks : List Task := []

namespace Traffic

/-- What can happen in one undivided step. -/
inductive Event
  /-- Something is asked. -/
  | begin (errand : Errand)
  /-- A call of an errand is answered. -/
  | call (errand : Errand) (request : Call)
  /-- A queue is made, or something happens to it at its other end. -/
  | handle (id : SessionId)

/-- One step, where only certain errands may be asked at a time. -/
inductive Step (may : Traffic → Errand → Prop) : Traffic → Event → Traffic → Prop
  | begin {t : Traffic} {errand : Errand} (allowed : may t errand) :
    Step may t (.begin errand) { t with tasks := t.tasks ++ [⟨errand, errand.routine⟩] }
  | call {g g' : Gateway} {before after : List Task} {errand : Errand} {request : Call}
    {next : request.Reply → Routine errand.Result} {reply : request.Reply}
    (answers : g.Answers request reply g') :
    Step may ⟨g, before ++ ⟨errand, .call request next⟩ :: after⟩ (.call errand request)
      ⟨g', before ++ ⟨errand, next reply⟩ :: after⟩
  | handle {t : Traffic} {id : SessionId} {m : Mailbox} :
    Step may t (.handle id) { t with gateway.hub := t.gateway.hub.setMailbox id m }

/-- A run of a gateway with its errands. -/
abbrev Run (may : Traffic → Errand → Prop) (start : Traffic) (past : List (Moment Traffic Event))
    (last : Traffic) : Prop :=
  Trace (Step may) start past last

/-- No errand is at work. -/
def AtRest (t : Traffic) : Prop := ∀ task ∈ t.tasks, task.IsDone

instance (t : Traffic) : Decidable t.AtRest := inferInstanceAs (Decidable (∀ task ∈ _, _))

variable {may : Traffic → Errand → Prop} {t t' start : Traffic} {event : Event}

theorem Step.indexed (step : Step may t event t') (h : t.gateway.hub.registry.Indexed) :
    t'.gateway.hub.registry.Indexed := by
  cases step with
  | begin => exact h
  | call answers => exact answers.indexed h
  | handle => exact h

theorem Run.indexed {past : List (Moment Traffic Event)} (run : Run may start past t)
    (empty : start.gateway.hub.registry = {}) : t.gateway.hub.registry.Indexed := by
  refine run.preserves (P := fun t => t.gateway.hub.registry.Indexed)
    (fun step h => step.indexed h) ?_
  rw [empty]
  exact Registry.indexed_empty

/-- A task is one of those around a certain place, or the one in that place. -/
theorem mem_tasks_iff {before after : List Task} {task other : Task} :
    other ∈ before ++ task :: after ↔ other = task ∨ other ∈ before ++ after := by
  simp only [List.mem_append, List.mem_cons]
  tauto

/-! ### Moves -/

/-- A step with nothing left open. -/
inductive Move
  /-- An errand is asked. -/
  | begin (errand : Errand)
  /-- The task of a certain number makes its next call. -/
  | advance (number : Nat)

/-- What a move leads to, if it is possible. -/
def after? (may : Traffic → Errand → Prop) [∀ t errand, Decidable (may t errand)] (t : Traffic) :
    Move → Option (Event × Traffic)
  | .begin errand =>
    if may t errand then
      some (.begin errand, { t with tasks := t.tasks ++ [⟨errand, errand.routine⟩] })
    else none
  | .advance number =>
    match t.tasks[number]? with
    | some ⟨errand, .call request next⟩ =>
      some (.call errand request,
        { gateway := (t.gateway.step request).2
          tasks := t.tasks.set number ⟨errand, next (t.gateway.step request).1⟩ })
    | _ => none

variable [∀ t errand, Decidable (may t errand)]

theorem Step.of_after? {move : Move} (h : t.after? may move = some (event, t')) :
    Step may t event t' := by
  cases move with
  | begin errand =>
    simp only [after?] at h
    split at h
    · rename_i hmay
      obtain ⟨rfl, rfl⟩ := Prod.mk.inj (Option.some_inj.mp h)
      exact .begin hmay
    · exact absurd h (by simp)
  | advance number =>
    simp only [after?] at h
    split at h
    · rename_i errand request next htask
      obtain ⟨rfl, rfl⟩ := Prod.mk.inj (Option.some_inj.mp h)
      obtain ⟨g, tasks⟩ := t
      obtain ⟨before, after, -, rfl, hset⟩ := exists_cut htask
      simp only [hset]
      exact .call (.plain request)
    · exact absurd h (by simp)

/-- The run that some moves lead to; those that are not possible are left out. -/
def play (may : Traffic → Errand → Prop) [∀ t errand, Decidable (may t errand)] (start : Traffic)
    (moves : List Move) : List (Moment Traffic Event) × Traffic :=
  Trace.follow (after? may) start moves

theorem Run.of_play (moves : List Move) :
    Run may start (start.play may moves).1 (start.play may moves).2 := by
  refine Trace.of_follow ?_ moves
  exact Step.of_after?

/-- A gateway that has not been asked anything. -/
def idle : Traffic where
  gateway := { supply := { ids := .version4, times := fun _ => default } }

/-- The moves that carry a task on as far as the number of calls says. -/
def Move.steps (number calls : Nat) : List Move := List.replicate calls (.advance number)

end Traffic

end RoomRelay
