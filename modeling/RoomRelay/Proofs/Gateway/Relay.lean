import RoomRelay.Proofs.Gateway.Dealings

/-!
# Texts and requests side by side

Texts and requests are worked on at the same time, call by call, while sessions come and go, frames
are taken from the queues, and rooms and clocks change. This file gives the system of a gateway with
all this work as a step relation, and says what one call does to the queues and to the messages.

## Main definitions

* `Job`, `Relay`, `Relay.Step`, `Relay.Run` — a gateway with the work that it does, and runs
* `Relay.gained` — the frames that a queue takes
* `Relay.play` — a run computed from moves

## Main results

* `Gateway.Answers.messages_eq`, `Gateway.Answers.frame_of_broadcast` — what one call does
* `Relay.Step.queue_suffix` — nothing gets into a queue but what it takes
-/

namespace RoomRelay

/-! ### What a call does to queues and messages -/

/-- The message that an exchange stores. -/
def Exchange.stored? : Exchange → Option Message
  | ⟨.storage (.createMessage _), .ok message⟩ => some message
  | _ => none

namespace Hub

variable {hub hub' : Hub} {id other : SessionId} {session : Session}

theorem queue_close : ((hub.close other).2.mailbox id).queue = (hub.mailbox id).queue := by
  rw [mailbox_close]
  split
  · exact Mailbox.queue_close
  · rfl

theorem queue_of_remove (h : hub.remove other = some hub') :
    (hub'.mailbox id).queue = (hub.mailbox id).queue := by
  rw [mailbox_of_remove h]
  split
  · exact Mailbox.queue_close
  · rfl

theorem queue_enroll :
    ((hub.enroll session).2.mailbox id).queue = (hub.mailbox id).queue := by
  unfold enroll
  split
  · exact queue_close
  · split
    · rfl
    · exact queue_close

theorem queue_withdraw :
    ((hub.withdraw session).2.mailbox id).queue = (hub.mailbox id).queue := by
  rcases withdraw_cases hub session with ⟨-, he⟩ | hr
  · rw [he]
  · exact queue_of_remove hr

theorem queue_drain : (hub.drain.2.mailbox id).queue = (hub.mailbox id).queue := by
  have hmailbox : hub.drain.2.mailbox id = if id ∈ hub.registry.drain.1.map (·.id) then
      (hub.mailbox id).close.1 else hub.mailbox id := mailbox_foldl_close
  rw [hmailbox]
  split
  · exact Mailbox.queue_close
  · rfl

/-- A broadcast takes nothing out of the queues. -/
theorem queue_prefix_broadcastTo {envelope : Envelope} {order : List Session}
    (hi : hub.registry.Indexed) (perm : order.Perm (hub.registry.members envelope.roomId)) :
    (hub.mailbox id).queue <+: ((hub.broadcastTo order envelope).2.mailbox id).queue := by
  by_cases haddr : envelope.Addresses hub id
  · cases offered_of_addresses hi perm haddr with
    | delivered _ _ hmailbox => simp [hmailbox]
    | overflowed _ htorn => simp [htorn.mailbox_eq]
    | unreachable _ hkept => simp [hkept.mailbox_eq]
  · simp [(kept_of_not_addresses hi perm haddr).mailbox_eq]

/-- What a broadcast puts into a queue is its frame, and only if it is meant for the session. -/
theorem frame_of_broadcastTo {envelope : Envelope} {order : List Session} {frame : Frame}
    (hi : hub.registry.Indexed) (perm : order.Perm (hub.registry.members envelope.roomId))
    (h : frame ∈ ((hub.broadcastTo order envelope).2.mailbox id).queue.drop
      (hub.mailbox id).queue.length) :
    frame = envelope.frame ∧ envelope.Addresses hub id := by
  by_cases haddr : envelope.Addresses hub id
  · refine ⟨?_, haddr⟩
    cases offered_of_addresses hi perm haddr with
    | delivered _ _ hmailbox => simpa [hmailbox] using h
    | overflowed _ htorn => simp [htorn.mailbox_eq] at h
    | unreachable _ hkept => simp [hkept.mailbox_eq] at h
  · simp [(kept_of_not_addresses hi perm haddr).mailbox_eq] at h

end Hub

namespace Gateway

variable {g g' : Gateway} {request : Call} {reply : request.Reply} {id : SessionId}

/-- The stores in memory answer every call. -/
theorem Answers.genuine (h : g.Answers request reply g') : Exchange.Genuine ⟨request, reply⟩ := by
  cases h with
  | shuffled => exact trivial
  | plain =>
    cases request with
    | storage call =>
      cases call with
      | createMessage draft => exact ⟨_, _, rfl⟩
      | _ => exact ⟨_, rfl⟩
    | _ => exact trivial

/-- A message that an exchange stores comes to the end of its room's history; nothing else changes
the messages. -/
theorem Answers.messages_eq (h : g.Answers request reply g') :
    g'.messages = (Exchange.stored? ⟨request, reply⟩).elim g.messages g.messages.append := by
  cases h with
  | shuffled => rfl
  | plain =>
    cases request with
    | storage call =>
      cases call with
      | touch roomId => exact messages_touch
      | _ => rfl
    | _ => rfl

/-- Nothing but a broadcast puts frames into queues. -/
theorem Answers.queue_eq (h : g.Answers request reply g')
    (hrequest : ∀ envelope, request ≠ .broadcast envelope) :
    (g'.hub.mailbox id).queue = (g.hub.mailbox id).queue := by
  cases h with
  | shuffled => exact absurd rfl (hrequest _)
  | plain =>
    cases request with
    | broadcast envelope => exact absurd rfl (hrequest envelope)
    | enroll session => exact Hub.queue_enroll
    | withdraw session => exact Hub.queue_withdraw
    | drain => exact Hub.queue_drain
    | storage call =>
      cases call with
      | touch roomId => exact congrArg (fun hub : Hub => (hub.mailbox id).queue) hub_touch
      | _ => rfl
    | _ => rfl

theorem Answers.frame_of_broadcast {envelope : Envelope} {report : BroadcastReport} {frame : Frame}
    (h : g.Answers (.broadcast envelope) report g') (hi : g.hub.registry.Indexed)
    (hframe : frame ∈ (g'.hub.mailbox id).queue.drop (g.hub.mailbox id).queue.length) :
    frame = envelope.frame ∧ envelope.Addresses g.hub id := by
  cases h with
  | plain => exact Hub.frame_of_broadcastTo hi (.refl _) hframe
  | shuffled perm => exact Hub.frame_of_broadcastTo hi perm hframe

/-- No call takes frames out of queues. -/
theorem Answers.queue_prefix (h : g.Answers request reply g') (hi : g.hub.registry.Indexed) :
    (g.hub.mailbox id).queue <+: (g'.hub.mailbox id).queue := by
  by_cases hrequest : ∃ envelope, request = .broadcast envelope
  · obtain ⟨envelope, rfl⟩ := hrequest
    cases h with
    | plain => exact Hub.queue_prefix_broadcastTo hi (.refl _)
    | shuffled perm => exact Hub.queue_prefix_broadcastTo hi perm
  · have hqueue : (g'.hub.mailbox id).queue = (g.hub.mailbox id).queue :=
      h.queue_eq fun envelope he => hrequest ⟨envelope, he⟩
    exact hqueue ▸ List.prefix_rfl

end Gateway

/-! ### The work of a gateway -/

/-- Some work with what is left of it. -/
structure Job where
  /-- The work. -/
  work : Work
  /-- What is left. -/
  rest : Routine work.Result

/-- A gateway with all the work that was ever brought to it. -/
structure Relay where
  /-- The gateway. -/
  gateway : Gateway
  /-- The work, in the order in which it was brought. -/
  jobs : List Job := []

namespace Relay

/-- What can happen in one undivided step. -/
inductive Event
  /-- Some work is brought. -/
  | begin (work : Work)
  /-- A call of the job of a certain number is answered. -/
  | call (number : Nat) (exchange : Exchange)
  /-- Something else happens. -/
  | drift

/-- One step. Whatever else happens is left open, as long as it stores no messages, puts no frames
into queues, and is an act on the hub or leaves the hub alone. -/
inductive Step (app : App) : Relay → Event → Relay → Prop
  | begin {t : Relay} {work : Work} (posting : work.IsPosting) :
    Step app t (.begin work) { t with jobs := t.jobs ++ [⟨work, work.routine app⟩] }
  | call {g g' : Gateway} {before after : List Job} {work : Work} {request : Call}
    {next : request.Reply → Routine work.Result} {reply : request.Reply}
    (answers : g.Answers request reply g') :
    Step app ⟨g, before ++ ⟨work, .call request next⟩ :: after⟩
      (.call before.length ⟨request, reply⟩) ⟨g', before ++ ⟨work, next reply⟩ :: after⟩
  | drift {g g' : Gateway} {jobs : List Job}
    (hub : g'.hub = g.hub ∨ ∃ act, Hub.Step g.hub act g'.hub)
    (queues : ∀ id, (g'.hub.mailbox id).queue <:+ (g.hub.mailbox id).queue)
    (messages : g'.messages = g.messages) : Step app ⟨g, jobs⟩ .drift ⟨g', jobs⟩

/-- A run of a gateway with its work. -/
abbrev Run (app : App) (start : Relay) (past : List (Moment Relay Event)) (last : Relay) : Prop :=
  Trace (Step app) start past last

/-- The frames that the queue of a session takes at a moment. -/
def gained (id : SessionId) (m : Moment Relay Event) : List Frame :=
  (m.after.gateway.hub.mailbox id).queue.drop (m.before.gateway.hub.mailbox id).queue.length

variable {app : App} {m : Moment Relay Event} {t t' : Relay} {event : Event}

theorem gained_eq_nil {id : SessionId} {g g' : Gateway} {jobs jobs' : List Job}
    (h : (g'.hub.mailbox id).queue.length ≤ (g.hub.mailbox id).queue.length) :
    gained id ⟨⟨g, jobs⟩, event, ⟨g', jobs'⟩⟩ = [] :=
  List.drop_eq_nil_of_le h

/-- The frames that a queue takes come to its end, and nothing else gets into it. -/
theorem Step.queue_suffix (step : Step app m.before m.event m.after)
    (hi : m.before.gateway.hub.registry.Indexed) (id : SessionId) :
    (m.after.gateway.hub.mailbox id).queue <:+
      (m.before.gateway.hub.mailbox id).queue ++ gained id m := by
  obtain ⟨t, event, t'⟩ := m
  dsimp only at step hi ⊢
  cases step with
  | begin => simp [gained]
  | drift _ queues =>
    rw [gained_eq_nil (queues id).length_le, List.append_nil]
    exact queues id
  | call answers =>
    exact ⟨[], (List.prefix_iff_eq_append.mp (answers.queue_prefix hi)).symm⟩

/-! ### Moves -/

/-- A step with nothing left open. -/
inductive Move
  /-- Some work is brought. -/
  | begin (work : Work)
  /-- The job of a certain number makes its next call. -/
  | advance (number : Nat)
  /-- A session is registered. -/
  | enroll (session : Session)

/-- What a move leads to, if it is possible. -/
def after? (app : App) (t : Relay) : Move → Option (Event × Relay)
  | .begin work =>
    if work.IsPosting then
      some (.begin work, { t with jobs := t.jobs ++ [⟨work, work.routine app⟩] })
    else none
  | .advance number =>
    match t.jobs[number]? with
    | some ⟨work, .call request next⟩ =>
      some (.call number ⟨request, (t.gateway.step request).1⟩,
        { gateway := (t.gateway.step request).2
          jobs := t.jobs.set number ⟨work, next (t.gateway.step request).1⟩ })
    | _ => none
  | .enroll session =>
    some (.drift, { t with gateway.hub := (t.gateway.hub.enroll session).2 })

theorem Step.of_after? {move : Move} (h : t.after? app move = some (event, t')) :
    Step app t event t' := by
  cases move with
  | begin work =>
    simp only [after?] at h
    split at h
    · rename_i posting
      obtain ⟨rfl, rfl⟩ := Prod.mk.inj (Option.some_inj.mp h)
      exact .begin posting
    · exact absurd h (by simp)
  | advance number =>
    simp only [after?] at h
    split at h
    · rename_i work request next hjob
      obtain ⟨rfl, rfl⟩ := Prod.mk.inj (Option.some_inj.mp h)
      obtain ⟨g, jobs⟩ := t
      obtain ⟨before, after, rfl, rfl, hset⟩ := exists_cut hjob
      simp only [hset]
      exact .call (.plain request)
    · exact absurd h (by simp)
  | enroll session =>
    obtain ⟨rfl, rfl⟩ := Prod.mk.inj (Option.some_inj.mp h)
    exact .drift (Or.inr ⟨_, .enroll⟩) (fun id => ⟨[], Hub.queue_enroll⟩) rfl

/-- The run that some moves lead to; those that are not possible are left out. -/
def play (app : App) (start : Relay) (moves : List Move) : List (Moment Relay Event) × Relay :=
  Trace.follow (after? app) start moves

theorem Run.of_play {start : Relay} (moves : List Move) :
    Run app start (start.play app moves).1 (start.play app moves).2 := by
  refine Trace.of_follow ?_ moves
  exact Step.of_after?

end Relay

end RoomRelay
