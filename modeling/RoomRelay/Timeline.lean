import RoomRelay.Connection.Link
import RoomRelay.Http.App

/-!
# Connections and requests in time

Time stands still while anything can be done at once, and then goes on to the next moment at which
something happens by itself. Connections do what they can do at once in rounds: first all of them
read, then all of them write, and then those that are finished leave.

## Main definitions

* `Timeline` — the gateway with its connections
* `Timeline.settle` — everything that can be done at once
* `Timeline.runUntil` — time passes
* `Timeline.perform`, `Timeline.performBefore` — a routine that somebody waits for
* `Timeline.stop` — the server stops
* `Timeline.connect`, `Timeline.updateLink` — clients come, send and go
* `Timeline.exchange` — a request is answered
-/

namespace RoomRelay

/-- The gateway with its connections. -/
structure Timeline where
  /-- The gateway and what hinders its calls. -/
  scene : Scene
  /-- The limits of connections. -/
  limits : HubConfig
  /-- The connections, first the one that came first. -/
  links : List Link := []

namespace Timeline

/-- The time in milliseconds. -/
def now (t : Timeline) : Nat := t.scene.now

/-- All connections do something, one after the other. -/
def each (f : Link → StateM Scene Link) (t : Timeline) : Timeline :=
  match (t.links.mapM f).run t.scene with
  | (links, scene) => { t with links, scene }

/-- One round. -/
def round (t : Timeline) : Timeline :=
  ((t.each (Link.read t.limits)).each Link.write).each Link.drive

/-- Some rounds. -/
def rounds : (count : Nat) → Timeline → Timeline
  | 0, t => t
  | count + 1, t => rounds count t.round

/-- Everything that can be done at once. A connection takes part in a few rounds on its own account,
and in one more for each other connection that closes its session. -/
def settle (t : Timeline) : Timeline := rounds (t.links.length + 5) t

/-- The moments after a given one at which something happens by itself. -/
def moments (t : Timeline) (after : Nat) : List Nat :=
  (t.links.flatMap Link.timers).filter (after < ·)

/-- The timeline at a moment. -/
def at_ (t : Timeline) (moment : Nat) : Timeline :=
  { t with scene := { t.scene with gateway := { t.scene.gateway with elapsed := moment } } }

/-- Everything that happens from one moment to another one, both included. -/
def runFrom (target moment : Nat) (t : Timeline) : Timeline :=
  let settled := (t.at_ moment).settle
  match (settled.moments moment).min? with
  | some next =>
    if _h : moment < next ∧ next ≤ target then runFrom target next settled else settled.at_ target
  | none => settled.at_ target
termination_by target - moment
decreasing_by omega

/-- Time passes until a moment. -/
def runUntil (target : Nat) (t : Timeline) : Timeline := runFrom target t.now t

/-! ## Routines that somebody waits for -/

/-- Does something to the gateway. -/
def onScene {α : Type} (f : StateM Scene α) : StateM Timeline α := fun t =>
  match f.run t.scene with
  | (a, scene) => (a, { t with scene })

section Waiting

variable {m : Type → Type} [Monad m] [MonadStateOf Timeline m]

/-- Answers a call after the time that it takes. -/
def await (sleep : Nat → m Unit) (c : Call) : m (c.Reply × Option String) := do
  modifyThe Timeline fun t => { t with scene := t.scene.remember c }
  let t ← getThe Timeline
  let o := t.scene.obstacle c
  if o.delay ≠ 0 then sleep (t.now + o.delay)
  let reply ← modifyGetThe Timeline (onScene (modifyGet (·.answer c o.reason)))
  return (reply, o.reason)

/-- Answers a call, and registers whoever waits for it. -/
def awaitAll (sleep : Nat → m Unit) (c : Call) : m c.Reply := do
  let (reply, reason) ← await sleep c
  match ← modifyGetThe Timeline (onScene (modifyGet (Scene.welcome c reason))) with
  | none => return reply
  | some session =>
    discard ((register session).carryOut fun c => return (← await sleep c).1)
    return reply

end Waiting

/-- Carries a routine out; time passes while it takes any. -/
def perform {α : Type} (routine : Routine α) : StateM Timeline α :=
  routine.carryOut (awaitAll fun moment => modify (·.runUntil moment))

/-- Waits until a moment, unless another one comes first. -/
def sleepBefore (limit moment : Nat) : OptionT (StateM Timeline) Unit := do
  if moment ≤ limit then modify (·.runUntil moment)
  else
    modify (·.runUntil limit)
    failure

/-- Carries a routine out as long as time allows; what it would have done later is never done. -/
def performBefore {α : Type} (limit : Nat) (routine : Routine α) : StateM Timeline (Option α) :=
  (routine.carryOut (awaitAll (sleepBefore limit))).run

/-! ## The end -/

/-- When a server stops that closed its sessions at one moment, if the requests in progress take
until another one. -/
def stopMoment (grace closed busyUntil : Nat) : Nat := min (closed + grace) (max closed busyUntil)

/-- Stops the server: the sessions are closed, and the requests in progress have so many
milliseconds left. The answer is how long that took. -/
def stop (grace busyUntil : Nat) : StateM Timeline Nat := do
  let told := (← get).now
  discard (perform shutdown)
  modify fun t => t.runUntil (stopMoment grace t.now busyUntil)
  return (← get).now - told

/-! ## Clients -/

/-- A new connection of an identity, which starts to register its session. -/
def connect (userId : String) (sink : Sink) (isSocket : Bool) : StateM Timeline Session := do
  let t ← get
  let (session, gateway) := t.scene.gateway.newSession userId t.limits.queueCapacity
  let scene := { t.scene with gateway }
  let (progress, scene) := (register session).proceed.run scene
  let link : Link := { session, phase := .over, sink, isSocket }
  set { t with scene, links := t.links ++ [link.entered t.limits t.now progress] }
  return session

/-- Answers a request; one for a socket that is granted becomes a connection. -/
def exchange (app : App) (r : HttpRequest) : StateM Timeline (HttpResponse × Option Session) := do
  let limit := (← get).now + App.patience
  let answer ← performBefore limit (app.answer r)
  let freshId ← onScene fun s =>
    match s.gateway.supply.freshId with
    | (id, supply) => (id, { s with gateway := { s.gateway with supply } })
  let response := app.dress freshId r (answer.getD App.overdue)
  match response.upgraded with
  | none => return (response, none)
  | some userId => return (response, some (← connect userId {} true))

/-- Changes the connection of a session. -/
def updateLink (id : SessionId) (f : Link → Link) (t : Timeline) : Timeline :=
  { t with links := t.links.map fun l => if l.session.id = id then f l else l }

/-- The client of a session sends something. -/
def send (id : SessionId) (item : Incoming) (t : Timeline) : Timeline :=
  t.updateLink id fun l => { l with inbox := l.inbox ++ [item] }

/-- The client of a session goes. -/
def hangUp (id : SessionId) (t : Timeline) : Timeline :=
  t.updateLink id fun l => { l with inbox := l.inbox ++ [.gone], hungUp := true }

/-- The client of a session takes so many messages from now on, or all. -/
def widen (id : SessionId) (room : Option Nat) (t : Timeline) : Timeline :=
  t.updateLink id fun l => { l with sink := l.sink.widen room }

end Timeline

end RoomRelay
