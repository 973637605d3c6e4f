import RoomRelay.Connection.Link
import RoomRelay.Proofs.Gateway.Handlers

/-!
# Connections side by side

Any number of connections are served at the same time. Each registers its session, reads, acts upon
what it reads, writes, leaves and takes its session out, and does so in small steps, between which
anything else may happen: steps of other connections, requests from elsewhere, the end of
everything. A connection that leaves gives up whatever text it was acting upon; how far that still
goes is left open, and so is whether a text or two are read after that.

The steps are made of the pieces that connections are made of, with everything left open that
depends on clients, on stores and on time.

## Main definitions

* `Gateway.Replies` — how a call may be answered if stores may fail
* `Concourse` — the gateway with all connections and all that happens beside them
* `Concourse.Event`, `Concourse.Step`, `Concourse.Run` — what can happen, and runs
* `Concourse.returned`, `Concourse.withdrawals` — what has become of a session

## Main results

* `Concourse.Step.sessions_eq` — connections come, and none is forgotten
* `Concourse.Step.abides` — whom a step is not about is registered or gone as before
* `Concourse.Step.registered` — who is registered was so before, or has just been
* `Concourse.Run.over` — a connection that is over stays there
-/

namespace RoomRelay

open Routine

variable {α : Type}

/-! ### Routines that have come to a call -/

/-- What is left of a routine whose next call has begun. -/
def Paused.rest (p : Paused α) : Routine α := .call p.request p.next

/-- What is left of a routine. -/
def Progress.rest : Progress α → Routine α
  | .finished a => .done a
  | .paused p => p.rest

/-- What the routine has ended with, if it has. -/
def Progress.result? : Progress α → Option α
  | .finished a => some a
  | .paused _ => none

/-- The call that the routine waits for, if it does. -/
def Progress.paused? : Progress α → Option (Paused α)
  | .finished _ => none
  | .paused p => some p

/-- What is left of the text that is being acted upon. -/
def Pumps.leftover (p : Pumps) : Routine Unit := (p.handling.map Paused.rest).getD (.done ())

/-- The pumps after a call of the text that is being acted upon. -/
def Pumps.handled (p : Pumps) (now : Nat) : Progress Unit → Pumps
  | .finished () => { p with inbound := p.inbound.restart now, handling := none }
  | .paused task => { p with handling := some task }

/-- The session that an errand is to register or to take out. -/
def Errand.subject? (errand : Errand) : Option SessionId := errand.opening.subject?

/-- The session that a call is to take out. -/
def Call.withdrawn? : Call → Option SessionId
  | withdraw session => some session.id
  | _ => none

theorem Call.subject?_of_withdrawn? {request : Call} {id : SessionId}
    (h : request.withdrawn? = some id) : request.subject? = some id := by
  cases request with
  | withdraw => exact h
  | _ => exact absurd h (by simp [withdrawn?])

/-! ### Calls that may fail -/

namespace Gateway

variable {g g' : Gateway} {request : Call} {reply : request.Reply} {id : SessionId}

/-- How a call may be answered, if a call to a store may also fail. -/
inductive Replies (g : Gateway) : (request : Call) → request.Reply → Gateway → Prop
  | answered {request : Call} {reply : request.Reply} {g' : Gateway}
    (answers : g.Answers request reply g') : g.Replies request reply g'
  | failed {request : Call} {reply : request.Reply} {reason : String}
    (fails : request.failure? reason = some reply) : g.Replies request reply g

/-- A call that acts on the hub does not fail. -/
theorem Replies.answers (h : g.Replies request reply g') (hact : request.act? ≠ none) :
    g.Answers request reply g' := by
  cases h with
  | answered answers => exact answers
  | failed fails =>
    cases request with
    | presence | storage => exact absurd rfl hact
    | _ => exact absurd fails (by simp [Call.failure?])

theorem Replies.indexed (h : g.Replies request reply g') (hi : g.hub.registry.Indexed) :
    g'.hub.registry.Indexed := by
  cases h with
  | answered answers => exact answers.indexed hi
  | failed => exact hi

end Gateway

/-! ### One connection -/

/-- The hand that acts upon the texts of a session whose connection has left. -/
structure Stray where
  session : Session
  rest : Routine Unit

/-- What can be observed of a step. -/
inductive Concourse.Event
  /-- A client connects. -/
  | connect (session : Session)
  /-- A call is answered to a connection that registers its session, and that may be all. -/
  | register (session : Session) (request : Call) (returned : Option Bool)
  /-- A call is answered to a connection that takes its session out, and that may be all. -/
  | unregister (session : Session) (request : Call) (returned : Option Bool)
  /-- A call is answered to somebody who acts upon a text of the session. -/
  | handle (session : Session) (request : Call)
  /-- A call is answered to somebody else. -/
  | errand (errand : Errand) (request : Call)
  /-- Something happens that calls for no answer. -/
  | quiet

/-- One step of a connection, with the gateway before and after it and with the texts that it gives
up. The time at which it happens is left open, as is what the client does with its end. -/
inductive Link.Step (limits : HubConfig) (g : Gateway) (l : Link) :
    Concourse.Event → Gateway → Link → List Stray → Prop
  /-- Registering goes on; at its end the client is served, or the connection is over. -/
  | enter {g' : Gateway} {rest : Paused Bool} {reply : rest.request.Reply}
    {progress : Progress Bool} {now : Nat} (phase_eq : l.phase = .registering rest)
    (replies : g.Replies rest.request reply g') (progress_eq : progress.rest = rest.next reply) :
    l.Step limits g (.register l.session rest.request progress.result?) g'
      (l.entered limits now progress) []
  /-- The client sends, receives or goes. -/
  | client {l' : Link} (session_eq : l'.session = l.session) (phase_eq : l'.phase = l.phase) :
    l.Step limits g .quiet g l' []
  /-- An item is read; a text will be acted upon. -/
  | read {p : Pumps} {item : Incoming} {inbox : List Incoming} {handling : Option (Paused Unit)}
    {now : Nat} (phase_eq : l.phase = .serving p) (idle : p.handling = none)
    (reading : p.inbound.ended = false) (inbox_eq : l.inbox = item :: inbox)
    (handling_eq : handling.map Paused.rest =
      (p.inbound.receive now item).1.map (handleText l.session)) :
    l.Step limits g .quiet g
      { l with
        inbox, phase := .serving { p with inbound := (p.inbound.receive now item).2, handling } } []
  /-- Acting upon a text goes on. -/
  | handle {g' : Gateway} {p : Pumps} {task : Paused Unit} {reply : task.request.Reply}
    {progress : Progress Unit} {now : Nat} (phase_eq : l.phase = .serving p)
    (handling_eq : p.handling = some task) (replies : g.Replies task.request reply g')
    (progress_eq : progress.rest = task.next reply) :
    l.Step limits g (.handle l.session task.request) g'
      { l with phase := .serving (p.handled now progress) } []
  /-- Nothing has been read, perhaps for too long. -/
  | tick {p : Pumps} {now : Nat} (phase_eq : l.phase = .serving p) (idle : p.handling = none) :
    l.Step limits g .quiet g
      { l with phase := .serving { p with inbound := p.inbound.tick now } } []
  /-- The writer does something, whatever the sink makes of it. -/
  | write {p : Pumps} {sink : Sink} {written : List Outgoing} {w : Writer} {now : Nat}
    (phase_eq : l.phase = .serving p)
    (writes : Writer.step? ⟨p.outbound, g.hub.mailbox l.session.id, sink, written⟩ now = some w) :
    l.Step limits g .quiet { g with hub := g.hub.setMailbox l.session.id w.mailbox }
      { l with phase := .serving { p with outbound := w.pump } } []
  /-- Reading or writing has ended or the session has been closed, and the connection leaves. Its
  end of the queue is dropped sooner or later. -/
  | leave {p : Pumps} {progress : Progress Bool} (phase_eq : l.phase = .serving p)
    (finished : Link.isFinished p (g.hub.mailbox l.session.id) = true)
    (progress_eq : progress.rest = RoomRelay.unregister l.session) :
    l.Step limits g .quiet g (l.left progress) [⟨l.session, p.leftover⟩]
  /-- Taking the session out goes on; at its end the connection is over. -/
  | exit {g' : Gateway} {rest : Paused Bool} {reply : rest.request.Reply} {progress : Progress Bool}
    (phase_eq : l.phase = .leaving rest) (replies : g.Replies rest.request reply g')
    (progress_eq : progress.rest = rest.next reply) :
    l.Step limits g (.unregister l.session rest.request progress.result?) g' (l.left progress) []

/-! ### Many connections, and what happens beside them -/

/-- A gateway with all connections, those that are over included, with what is still done for
connections that have left, and with whatever else has been asked of it. -/
structure Concourse where
  gateway : Gateway
  links : List Link := []
  strays : List Stray := []
  tasks : List Task := []

namespace Concourse

/-- The sessions of all connections, in the order in which they came. -/
def sessions (c : Concourse) : List Session := c.links.map Link.session

/-- The identifier is in use by no connection, and nobody else has been asked about it. -/
def Fresh (c : Concourse) (id : SessionId) : Prop :=
  (∀ session ∈ c.sessions, session.id ≠ id) ∧ ∀ task ∈ c.tasks, task.errand.subject? ≠ some id

/-- One step. -/
inductive Step (limits : HubConfig) : Concourse → Event → Concourse → Prop
  /-- A client connects: a session is made, and is to be registered. -/
  | connect {c : Concourse} {userId : String} {l : Link} {progress : Progress Bool} {g : Gateway}
    {now : Nat} (made : c.gateway.newSession userId limits.queueCapacity = (l.session, g))
    (fresh : c.Fresh l.session.id) (progress_eq : progress.rest = RoomRelay.register l.session) :
    Step limits c (.connect l.session)
      { c with gateway := g, links := c.links ++ [l.entered limits now progress] }
  | link {g g' : Gateway} {before after : List Link} {l l' : Link} {strays givenUp : List Stray}
    {tasks : List Task} {event : Event} (step : l.Step limits g event g' l' givenUp) :
    Step limits ⟨g, before ++ l :: after, strays, tasks⟩ event
      ⟨g', before ++ l' :: after, strays ++ givenUp, tasks⟩
  /-- A text that was given up goes on nevertheless. -/
  | stray {g g' : Gateway} {links : List Link} {before after : List Stray} {tasks : List Task}
    {session : Session} {request : Call} {next : request.Reply → Routine Unit}
    {reply : request.Reply} (replies : g.Replies request reply g') :
    Step limits ⟨g, links, before ++ ⟨session, .call request next⟩ :: after, tasks⟩
      (.handle session request) ⟨g', links, before ++ ⟨session, next reply⟩ :: after, tasks⟩
  /-- A text is read although the connection has left. -/
  | strayText {g : Gateway} {links : List Link} {before after : List Stray} {tasks : List Task}
    {session : Session} {text : String} :
    Step limits ⟨g, links, before ++ ⟨session, .done ()⟩ :: after, tasks⟩ .quiet
      ⟨g, links, before ++ ⟨session, handleText session text⟩ :: after, tasks⟩
  /-- Somebody else asks for something, but not about the session of a connection. -/
  | begin {c : Concourse} {errand : Errand}
    (allowed : ∀ session ∈ c.sessions, errand.subject? ≠ some session.id) :
    Step limits c .quiet { c with tasks := c.tasks ++ [⟨errand, errand.routine⟩] }
  | call {g g' : Gateway} {links : List Link} {strays : List Stray} {before after : List Task}
    {errand : Errand} {request : Call} {next : request.Reply → Routine errand.Result}
    {reply : request.Reply} (replies : g.Replies request reply g') :
    Step limits ⟨g, links, strays, before ++ ⟨errand, .call request next⟩ :: after⟩
      (.errand errand request) ⟨g', links, strays, before ++ ⟨errand, next reply⟩ :: after⟩
  /-- Something happens to a queue at its other end, for example a connection that has left drops
  it; that of a connection is not opened again. -/
  | queue {c : Concourse} {id : SessionId} {m : Mailbox}
    (shut : (∃ session ∈ c.sessions, session.id = id) → c.gateway.hub.isClosed id = true →
      m.isClosed = true) :
    Step limits c .quiet { c with gateway.hub := c.gateway.hub.setMailbox id m }
  /-- Something happens elsewhere, for example time passes. -/
  | elsewhere {c : Concourse} {g : Gateway} (hub_eq : g.hub = c.gateway.hub) :
    Step limits c .quiet { c with gateway := g }

/-- A run of connections side by side. -/
abbrev Run (limits : HubConfig) (start : Concourse) (past : List (Moment Concourse Event))
    (last : Concourse) : Prop :=
  Trace (Step limits) start past last

/-! ### What an event is about -/

namespace Event

/-- The session of a client that connects. -/
def newcomer? : Event → Option Session
  | connect session => some session
  | _ => none

/-- The call that is answered. -/
def request? : Event → Option Call
  | register _ request _ | unregister _ request _ | handle _ request | errand _ request =>
    some request
  | connect _ | quiet => none

/-- The session that is registered or taken out. -/
def subject? (event : Event) : Option SessionId := event.request?.bind Call.subject?

@[simp] theorem subject?_connect (session : Session) : (connect session).subject? = none := rfl

@[simp] theorem subject?_quiet : quiet.subject? = none := rfl

/-- What registering a session has returned. -/
def returned? (id : SessionId) : Event → Option Bool
  | register session _ returned => if session.id = id then returned else none
  | _ => none

end Event

variable {past : List (Moment Concourse Event)} {m : Moment Concourse Event} {id : SessionId}

/-- What the attempts of connections to register a session have returned. -/
def returned (id : SessionId) (past : List (Moment Concourse Event)) : List Bool :=
  past.filterMap (·.event.returned? id)

/-- How often a session has been taken out, by whomever. -/
def withdrawals (id : SessionId) (past : List (Moment Concourse Event)) : Nat :=
  past.countP fun m => m.event.request?.bind Call.withdrawn? = some id

theorem returned_snoc :
    returned id (past ++ [m]) = returned id past ++ (m.event.returned? id).toList :=
  filterMap_snoc _ _ _

theorem withdrawals_snoc : withdrawals id (past ++ [m]) =
    withdrawals id past + if m.event.request?.bind Call.withdrawn? = some id then 1 else 0 := by
  unfold withdrawals
  rw [List.countP_append, List.countP_singleton]
  simp

theorem withdrawals_snoc_of_subject?_ne (h : m.event.subject? ≠ some id) :
    withdrawals id (past ++ [m]) = withdrawals id past := by
  rw [withdrawals_snoc, if_neg, Nat.add_zero]
  intro hw
  obtain ⟨request, hr, hid⟩ := Option.bind_eq_some_iff.mp hw
  refine h ?_
  rw [Event.subject?, hr]
  exact Call.subject?_of_withdrawn? hid

end Concourse

/-! ### What a step does to a session -/

namespace Hub

variable {hub hub' : Hub} {id other : SessionId}

/-- The session is registered, or it is gone. -/
def Here (id : SessionId) (hub : Hub) : Prop := hub.registry.contains id = true ∨ Gone id hub

theorem Here.gone (h : Here id hub) (habsent : hub.registry.contains id = false) : Gone id hub :=
  h.resolve_left (by simp [habsent])

/-- Whether the session is registered or gone, it is so still. -/
structure Abides (id : SessionId) (hub hub' : Hub) : Prop where
  here : Here id hub → Here id hub'
  gone : Gone id hub → Gone id hub'

theorem Abides.refl (id : SessionId) (hub : Hub) : Abides id hub hub := ⟨fun h => h, fun h => h⟩

/-- As long as no queue is opened, sessions stay what they are. -/
theorem abides_setMailbox {m : Mailbox}
    (h : other = id → hub.isClosed id = true → m.isClosed = true) :
    Abides id hub (hub.setMailbox other m) := by
  have hgone : Gone id hub → Gone id (hub.setMailbox other m) := by
    intro hg
    refine ⟨hg.absent, ?_⟩
    rw [isClosed, mailbox_setMailbox]
    split
    · rename_i hid
      exact h hid hg.closed
    · exact hg.closed
  exact ⟨Or.imp_right hgone, hgone⟩

end Hub

/-- Whoever is registered after a call was so before, or the call was to register it. -/
theorem Gateway.Replies.registered {g g' : Gateway} {request : Call} {reply : request.Reply}
    {id : SessionId} {session : Session} (h : g.Replies request reply g')
    (hs : g'.hub.registry.sessions.get? id = some session) :
    g.hub.registry.sessions.get? id = some session ∨ request = .enroll session := by
  cases h with
  | failed => exact Or.inl hs
  | answered answers =>
    rcases answers.registered hs with hold | hadmits
    · exact Or.inl hold
    · cases hadmits
      exact Or.inr rfl

theorem Gateway.Replies.coherent {g g' : Gateway} {request : Call} {reply : request.Reply}
    (h : g.Replies request reply g') (hc : g.hub.registry.Coherent)
    (hfits : ∀ session, request = .enroll session → g.hub.registry.Fits session) :
    g'.hub.registry.Coherent := by
  cases h with
  | failed => exact hc
  | answered answers => exact answers.coherent hc hfits

theorem Gateway.Replies.abides {g g' : Gateway} {request : Call} {reply : request.Reply}
    {id : SessionId} (h : g.Replies request reply g') (hi : g.hub.registry.Indexed)
    (hsubject : request.subject? ≠ some id) : Hub.Abides id g.hub g'.hub := by
  cases h with
  | failed => exact .refl id g.hub
  | answered answers =>
    refine ⟨fun hhere => answers.registered_or_gone hi (Or.inl hhere), fun hgone => ?_⟩
    refine answers.gone hi hgone ?_
    rintro session rfl hid
    exact hsubject (congrArg some hid)

/-- The writer takes frames from a queue, and neither opens nor closes it. -/
theorem Writer.isClosed_of_step? {w w' : Writer} {now : Nat} (h : w.step? now = some w') :
    w'.mailbox.isClosed = w.mailbox.isClosed := by
  unfold step? at h
  split at h
  · exact absurd h (by simp)
  · obtain ⟨⟨pump, mailbox⟩, hnext, rfl⟩ := Option.map_eq_some_iff.mp h
    unfold OutboundPump.next? at hnext
    split at hnext
    · rename_i frame rest htake
      obtain ⟨-, rfl⟩ := Prod.mk.inj (Option.some_inj.mp hnext)
      exact Mailbox.isClosed_of_take htake
    · split at hnext
      · obtain ⟨-, rfl⟩ := Prod.mk.inj (Option.some_inj.mp hnext)
        rfl
      · split at hnext
        · obtain ⟨-, rfl⟩ := Prod.mk.inj (Option.some_inj.mp hnext)
          rfl
        · exact absurd hnext (by simp)
  · dsimp only at h
    split at h
    · exact absurd h (by simp)
    · rw [← Option.some_inj.mp h]
      rfl

theorem Gateway.hub_newSession {g g' : Gateway} {userId : String} {capacity : Nat}
    {session : Session} (h : g.newSession userId capacity = (session, g')) :
    g'.hub = g.hub.openSession session capacity := by
  obtain ⟨rfl, rfl⟩ := Prod.mk.inj h
  rfl

namespace Link

variable {limits : HubConfig} {g g' : Gateway} {l l' : Link} {givenUp : List Stray}
variable {event : Concourse.Event} {id : SessionId}

@[simp] theorem session_entered {now : Nat} {progress : Progress Bool} :
    (l.entered limits now progress).session = l.session := by
  cases progress with
  | finished result => cases result <;> rfl
  | paused => rfl

@[simp] theorem session_left {progress : Progress Bool} :
    (l.left progress).session = l.session := by
  cases progress <;> rfl

theorem Step.session_eq (h : l.Step limits g event g' l' givenUp) : l'.session = l.session := by
  cases h with
  | enter => exact session_entered
  | leave | exit => exact session_left
  | client session_eq => exact session_eq
  | read | handle | tick | write => rfl

theorem Step.newcomer?_eq_none (h : l.Step limits g event g' l' givenUp) :
    event.newcomer? = none := by
  cases h <;> rfl

/-- A connection that is over does nothing more. -/
theorem Step.phase_over (h : l.Step limits g event g' l' givenUp) (hover : l.phase = .over) :
    l'.phase = .over := by
  cases h with
  | client _ phase_eq => exact phase_eq.trans hover
  | _ phase_eq => exact absurd (hover.symm.trans phase_eq) (by simp)

theorem Step.indexed (h : l.Step limits g event g' l' givenUp) (hi : g.hub.registry.Indexed) :
    g'.hub.registry.Indexed := by
  cases h with
  | enter _ replies | handle _ _ replies | exit _ replies => exact replies.indexed hi
  | client | read | tick | write | leave => exact hi

theorem Step.abides (h : l.Step limits g event g' l' givenUp) (hi : g.hub.registry.Indexed)
    (hsubject : event.subject? ≠ some id) : Hub.Abides id g.hub g'.hub := by
  cases h with
  | enter _ replies | handle _ _ replies | exit _ replies => exact replies.abides hi hsubject
  | client | read | tick | leave => exact .refl id g.hub
  | write _ writes =>
    refine Hub.abides_setMailbox ?_
    rintro rfl hclosed
    exact (Writer.isClosed_of_step? writes).trans hclosed

theorem Step.returned?_eq_none (h : l.Step limits g event g' l' givenUp)
    (hne : l.session.id ≠ id) : event.returned? id = none := by
  cases h with
  | enter => exact if_neg hne
  | _ => rfl

theorem Step.registered (h : l.Step limits g event g' l' givenUp) {session : Session}
    (hs : g'.hub.registry.sessions.get? id = some session) :
    g.hub.registry.sessions.get? id = some session ∨
      event.request? = some (.enroll session) := by
  cases h with
  | enter _ replies | handle _ _ replies | exit _ replies =>
    exact (replies.registered hs).imp_right (congrArg some)
  | client | read | tick | write | leave => exact Or.inl hs

theorem Step.coherent (h : l.Step limits g event g' l' givenUp) (hc : g.hub.registry.Coherent)
    (hfits : ∀ session, event.request? = some (.enroll session) → g.hub.registry.Fits session) :
    g'.hub.registry.Coherent := by
  cases h with
  | enter _ replies | handle _ _ replies | exit _ replies =>
    exact replies.coherent hc fun session hs => hfits session (congrArg some hs)
  | client | read | tick | write | leave => exact hc

end Link

namespace Concourse

variable {limits : HubConfig} {c c' : Concourse} {event : Event} {id : SessionId}

/-- Connections come, and none is forgotten. -/
theorem Step.sessions_eq (h : Step limits c event c') :
    c'.sessions = c.sessions ++ event.newcomer?.toList := by
  cases h with
  | connect => simp [sessions, Event.newcomer?]
  | link step =>
    rw [step.newcomer?_eq_none]
    simp [sessions, step.session_eq]
  | _ => exact (List.append_nil _).symm

/-- What has been asked is not forgotten either. -/
theorem Step.mem_errands (h : Step limits c event c') {task : Task} (htask : task ∈ c.tasks) :
    ∃ task' ∈ c'.tasks, task'.errand = task.errand := by
  cases h with
  | begin => exact ⟨task, List.mem_append_left _ htask, rfl⟩
  | call =>
    rcases Traffic.mem_tasks_iff.mp htask with rfl | hother
    · exact ⟨_, Traffic.mem_tasks_iff.mpr (Or.inl rfl), rfl⟩
    · exact ⟨task, Traffic.mem_tasks_iff.mpr (Or.inr hother), rfl⟩
  | _ => exact ⟨task, htask, rfl⟩

theorem Step.indexed (h : Step limits c event c') (hi : c.gateway.hub.registry.Indexed) :
    c'.gateway.hub.registry.Indexed := by
  cases h with
  | connect made =>
    dsimp only
    rw [Gateway.hub_newSession made]
    exact hi
  | link step => exact step.indexed hi
  | stray replies | call replies => exact replies.indexed hi
  | strayText | begin | queue => exact hi
  | elsewhere hub_eq => exact hub_eq ▸ hi

/-- Whoever has a connection is registered or gone as before, unless the event is to register it or
to take it out. -/
theorem Step.abides (h : Step limits c event c') (hi : c.gateway.hub.registry.Indexed)
    (hin : ∃ session ∈ c.sessions, session.id = id) (hsubject : event.subject? ≠ some id) :
    Hub.Abides id c.gateway.hub c'.gateway.hub := by
  cases h with
  | connect made fresh =>
    dsimp only
    rw [Gateway.hub_newSession made]
    refine Hub.abides_setMailbox ?_
    -- The session that is made is another one.
    rintro rfl
    obtain ⟨session, hsession, hid⟩ := hin
    exact absurd hid (fresh.1 session hsession)
  | link step => exact step.abides hi hsubject
  | stray replies | call replies => exact replies.abides hi hsubject
  | strayText | begin => exact .refl id _
  | queue shut =>
    refine Hub.abides_setMailbox ?_
    rintro rfl
    exact shut hin
  | elsewhere hub_eq => exact hub_eq ▸ .refl id _

theorem Step.registered (h : Step limits c event c') {session : Session}
    (hs : c'.gateway.hub.registry.sessions.get? id = some session) :
    c.gateway.hub.registry.sessions.get? id = some session ∨
      event.request? = some (.enroll session) := by
  cases h with
  | connect made =>
    dsimp only at hs
    rw [Gateway.hub_newSession made] at hs
    exact Or.inl hs
  | link step => exact step.registered hs
  | stray replies | call replies => exact (replies.registered hs).imp_right (congrArg some)
  | strayText | begin | queue => exact Or.inl hs
  | elsewhere hub_eq =>
    dsimp only at hs
    rw [hub_eq] at hs
    exact Or.inl hs

theorem Step.coherent (h : Step limits c event c') (hc : c.gateway.hub.registry.Coherent)
    (hfits : ∀ session, event.request? = some (.enroll session) →
      c.gateway.hub.registry.Fits session) :
    c'.gateway.hub.registry.Coherent := by
  cases h with
  | connect made =>
    dsimp only
    rw [Gateway.hub_newSession made]
    exact hc
  | link step => exact step.coherent hc hfits
  | stray replies | call replies =>
    exact replies.coherent hc fun session hs => hfits session (congrArg some hs)
  | strayText | begin | queue => exact hc
  | elsewhere hub_eq => exact hub_eq ▸ hc

/-- Nobody returns from registering a session but its connection. -/
theorem Step.returned?_eq_none (h : Step limits c event c')
    (hne : ∀ session ∈ c.sessions, session.id ≠ id) : event.returned? id = none := by
  cases h with
  | link step => exact step.returned?_eq_none (hne _ (by simp [sessions]))
  | _ => rfl

/-- An identifier that is fresh was so before. -/
theorem Step.fresh (h : Step limits c event c') (hfresh : c'.Fresh id) : c.Fresh id := by
  constructor
  · intro session hsession
    refine hfresh.1 session ?_
    rw [h.sessions_eq]
    exact List.mem_append_left _ hsession
  · intro task htask
    obtain ⟨task', htask', herrand⟩ := h.mem_errands htask
    exact herrand ▸ hfresh.2 task' htask'

/-- A connection that is over stays there. -/
theorem Step.over (h : Step limits c event c') {l : Link} (hl : l ∈ c.links)
    (hover : l.phase = .over) : ∃ l' ∈ c'.links, l'.session = l.session ∧ l'.phase = .over := by
  cases h with
  | connect => exact ⟨l, List.mem_append_left _ hl, rfl, hover⟩
  | @link g g' before after k k' strays givenUp tasks event step =>
    rw [List.mem_append, List.mem_cons] at hl
    rcases hl with hbefore | rfl | hafter
    · exact ⟨l, List.mem_append_left _ hbefore, rfl, hover⟩
    · exact ⟨k', List.mem_append_right _ List.mem_cons_self, step.session_eq,
        step.phase_over hover⟩
    · exact ⟨l, List.mem_append_right _ (List.mem_cons_of_mem _ hafter), rfl, hover⟩
  | _ => exact ⟨l, hl, rfl, hover⟩

theorem Run.over {past : List (Moment Concourse Event)} (run : Run limits c past c') {l : Link}
    (hl : l ∈ c.links) (hover : l.phase = .over) :
    ∃ l' ∈ c'.links, l'.session = l.session ∧ l'.phase = .over := by
  refine run.preserves (P := fun c => ∃ l' ∈ c.links, l'.session = l.session ∧ l'.phase = .over)
    ?_ ⟨l, hl, rfl, hover⟩
  rintro s e t step ⟨l', hl', hsession, hover'⟩
  obtain ⟨l'', hl'', hsession', hover''⟩ := step.over hl' hover'
  exact ⟨l'', hl'', hsession'.trans hsession, hover''⟩

end Concourse

/-! ### Moves -/

/-- How far a routine has come whose next call has begun, if there is one. -/
def Routine.pause {α : Type} : Routine α → Progress α
  | .done a => .finished a
  | .call request next => .paused ⟨request, none, 0, next⟩

@[simp] theorem Progress.rest_pause (r : Routine α) : r.pause.rest = r := by
  cases r <;> rfl

/-- What a connection does next, if nothing fails and no time passes. -/
def Link.next? (limits : HubConfig) (g : Gateway) (l : Link) :
    Option (Concourse.Event × Gateway × Link × List Stray) :=
  match l.phase with
  | .registering rest =>
    let (reply, g') := g.step rest.request
    let progress := (rest.next reply).pause
    some (.register l.session rest.request progress.result?, g', l.entered limits 0 progress, [])
  | .serving p =>
    if Link.isFinished p (g.hub.mailbox l.session.id) then
      some (.quiet, g, l.left (RoomRelay.unregister l.session).pause, [⟨l.session, p.leftover⟩])
    else
      match p.handling, l.inbox with
      | some task, _ =>
        let (reply, g') := g.step task.request
        some (.handle l.session task.request, g',
          { l with phase := .serving (p.handled 0 (task.next reply).pause) }, [])
      | none, item :: inbox =>
        let (text?, inbound) := p.inbound.receive 0 item
        let handling := text?.bind fun text => (handleText l.session text).pause.paused?
        some (.quiet, g, { l with inbox, phase := .serving { p with inbound, handling } }, [])
      | none, [] => none
  | .leaving rest =>
    let (reply, g') := g.step rest.request
    let progress := (rest.next reply).pause
    some (.unregister l.session rest.request progress.result?, g', l.left progress, [])
  | .over => none

theorem Link.Step.of_next? {limits : HubConfig} {g g' : Gateway} {l l' : Link}
    {event : Concourse.Event} {givenUp : List Stray}
    (h : l.next? limits g = some (event, g', l', givenUp)) :
    l.Step limits g event g' l' givenUp := by
  unfold next? at h
  split at h
  · rename_i rest phase_eq
    obtain ⟨rfl, rfl, rfl, rfl⟩ := by simpa using h
    exact .enter phase_eq (.answered (.plain _)) (Progress.rest_pause _)
  · rename_i p phase_eq
    split at h
    · rename_i finished
      obtain ⟨rfl, rfl, rfl, rfl⟩ := by simpa using h
      exact .leave phase_eq finished (Progress.rest_pause _)
    · rename_i unfinished
      split at h
      · rename_i task handling_eq
        obtain ⟨rfl, rfl, rfl, rfl⟩ := by simpa using h
        exact .handle phase_eq handling_eq (.answered (.plain _)) (Progress.rest_pause _)
      -- A connection that is not finished has not read its last item.
      · rename_i item inbox idle inbox_eq
        obtain ⟨rfl, rfl, rfl, rfl⟩ := by simpa using h
        refine .read phase_eq idle ?_ inbox_eq ?_
        · simp only [isFinished, Bool.not_eq_true, Bool.or_eq_false_iff] at unfinished
          exact unfinished.1.1
        · cases (p.inbound.receive 0 item).1 <;> rfl
      · exact absurd h (by simp)
  · rename_i rest phase_eq
    obtain ⟨rfl, rfl, rfl, rfl⟩ := by simpa using h
    exact .exit phase_eq (.answered (.plain _)) (Progress.rest_pause _)
  · exact absurd h (by simp)

namespace Concourse

variable {limits : HubConfig} {c c' : Concourse} {event : Event} {move : Move}

/-- A step with nothing left open. -/
inductive Move
  /-- A client connects. -/
  | connect (userId : String)
  /-- The client of the connection of a certain number sends something. -/
  | send (number : Nat) (item : Incoming)
  /-- That connection goes on. -/
  | link (number : Nat)
  /-- A text that was given up goes on. -/
  | stray (number : Nat)
  /-- Somebody else asks for something. -/
  | begin (errand : Errand)
  /-- What was asked for goes on. -/
  | call (number : Nat)

instance (c : Concourse) (id : SessionId) : Decidable (c.Fresh id) :=
  inferInstanceAs (Decidable (_ ∧ _))

/-- What a move leads to, if it is possible. -/
def after? (limits : HubConfig) (c : Concourse) : Move → Option (Event × Concourse)
  | .connect userId =>
    let (session, gateway) := c.gateway.newSession userId limits.queueCapacity
    let l : Link := { session, phase := .over }
    if c.Fresh session.id then
      some (.connect session,
        { c with gateway, links := c.links ++ [l.entered limits 0 (register session).pause] })
    else none
  | .send number item =>
    c.links[number]?.map fun l =>
      (.quiet, { c with links := c.links.set number { l with inbox := l.inbox ++ [item] } })
  | .link number =>
    match c.links[number]? with
    | some l =>
      (l.next? limits c.gateway).map fun (event, gateway, l', givenUp) =>
        (event,
          { c with gateway, links := c.links.set number l', strays := c.strays ++ givenUp })
    | none => none
  | .stray number =>
    match c.strays[number]? with
    | some ⟨session, .call request next⟩ =>
      let (reply, gateway) := c.gateway.step request
      some (.handle session request,
        { c with gateway, strays := c.strays.set number ⟨session, next reply⟩ })
    | _ => none
  | .begin errand =>
    if ∀ session ∈ c.sessions, errand.subject? ≠ some session.id then
      some (.quiet, { c with tasks := c.tasks ++ [⟨errand, errand.routine⟩] })
    else none
  | .call number =>
    match c.tasks[number]? with
    | some ⟨errand, .call request next⟩ =>
      let (reply, gateway) := c.gateway.step request
      some (.errand errand request,
        { c with gateway, tasks := c.tasks.set number ⟨errand, next reply⟩ })
    | _ => none

theorem Step.of_after? (h : c.after? limits move = some (event, c')) :
    Step limits c event c' := by
  obtain ⟨g, links, strays, tasks⟩ := c
  cases move with
  | connect userId =>
    simp only [after?] at h
    split at h
    · rename_i fresh
      obtain ⟨rfl, rfl⟩ := Prod.mk.inj (Option.some_inj.mp h)
      let l : Link := { session := (g.newSession userId limits.queueCapacity).1, phase := .over }
      exact .connect (l := l) rfl fresh (Progress.rest_pause _)
    · exact absurd h (by simp)
  | send number item =>
    obtain ⟨l, hl, he⟩ := Option.map_eq_some_iff.mp h
    obtain ⟨rfl, rfl⟩ := Prod.mk.inj he
    obtain ⟨before, after, -, rfl, hset⟩ := exists_cut hl
    simp only [hset]
    have hstep : Step limits ⟨g, before ++ l :: after, strays, tasks⟩ .quiet
        ⟨g, before ++ { l with inbox := l.inbox ++ [item] } :: after, strays ++ [], tasks⟩ :=
      .link (.client rfl rfl)
    rwa [List.append_nil] at hstep
  | link number =>
    simp only [after?] at h
    split at h
    · rename_i l hl
      obtain ⟨⟨event, gateway, l', givenUp⟩, hnext, he⟩ := Option.map_eq_some_iff.mp h
      obtain ⟨rfl, rfl⟩ := Prod.mk.inj he
      obtain ⟨before, after, -, rfl, hset⟩ := exists_cut hl
      simp only [hset]
      exact .link (.of_next? hnext)
    · exact absurd h (by simp)
  | stray number =>
    simp only [after?] at h
    split at h
    · rename_i session request next hstray
      obtain ⟨rfl, rfl⟩ := Prod.mk.inj (Option.some_inj.mp h)
      obtain ⟨before, after, -, rfl, hset⟩ := exists_cut hstray
      simp only [hset]
      exact .stray (.answered (.plain request))
    · exact absurd h (by simp)
  | begin errand =>
    simp only [after?] at h
    split at h
    · rename_i allowed
      obtain ⟨rfl, rfl⟩ := Prod.mk.inj (Option.some_inj.mp h)
      exact .begin allowed
    · exact absurd h (by simp)
  | call number =>
    simp only [after?] at h
    split at h
    · rename_i errand request next htask
      obtain ⟨rfl, rfl⟩ := Prod.mk.inj (Option.some_inj.mp h)
      obtain ⟨before, after, -, rfl, hset⟩ := exists_cut htask
      simp only [hset]
      exact .call (.answered (.plain request))
    · exact absurd h (by simp)

/-- The run that some moves lead to; those that are not possible are left out. -/
def play (limits : HubConfig) (start : Concourse) (moves : List Move) :
    List (Moment Concourse Event) × Concourse :=
  Trace.follow (after? limits) start moves

theorem Run.of_play (moves : List Move) {start : Concourse} :
    Run limits start (start.play limits moves).1 (start.play limits moves).2 := by
  refine Trace.of_follow ?_ moves
  exact Step.of_after?

end Concourse

end RoomRelay
