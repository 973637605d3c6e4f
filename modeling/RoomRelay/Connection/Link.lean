import RoomRelay.Connection.Inbound
import RoomRelay.Connection.Outbound
import RoomRelay.Gateway.Dispatch
import RoomRelay.Timeline.Scene

/-!
# One connection

A connection registers its session, reads and writes until either ends or the session is closed, and
then takes the session out, once. What the client still has in the queue at that moment is lost, and
a command that is being carried out goes no further. A session that is not admitted is not served.

## Main definitions

* `Pumps`, `Phase`, `Link` — where a connection stands
* `Link.read`, `Link.write`, `Link.drive` — what it does at once
* `Link.timers` — when it will do something on its own
-/

namespace RoomRelay

/-- Reading and writing, side by side. -/
structure Pumps where
  /-- Reading. -/
  inbound : InboundPump
  /-- Writing. -/
  outbound : OutboundPump
  /-- A text that is being acted upon. -/
  handling : Option (Paused Unit) := none

/-- Both pumps, started at a time. -/
def Pumps.start (limits : HubConfig) (now : Nat) : Pumps where
  inbound := .start (limits.idleTimeout * 1000) now
  outbound := .start limits now

/-- Where a connection stands. -/
inductive Phase
  /-- Its session is being registered. -/
  | registering (rest : Paused Bool)
  /-- Its client is served. -/
  | serving (pumps : Pumps)
  /-- Its session is being taken out. -/
  | leaving (rest : Paused Bool)
  /-- It is over. -/
  | over

/-- One connection with the client at its other end. -/
structure Link where
  /-- The session. -/
  session : Session
  /-- Where it stands. -/
  phase : Phase
  /-- What the client has sent and nobody has read. -/
  inbox : List Incoming := []
  /-- The way to the client. -/
  sink : Sink := {}
  /-- What the client has received, latest first. -/
  received : List Outgoing := []
  /-- The client sits at the end of a socket: it answers each ping, and it sees the end as soon as
  nobody reads any more. -/
  isSocket : Bool := false
  /-- The client has gone. -/
  hungUp : Bool := false

namespace Link

/-- The client sees that the connection has ended. -/
def isEnded (l : Link) : Bool :=
  match l.phase with
  | .over => true
  | .leaving _ => l.isSocket
  | .registering _ | .serving _ => l.isSocket && l.hungUp

/-- The connection after an attempt to register its session. -/
def entered (l : Link) (limits : HubConfig) (now : Nat) : Progress Bool → Link
  | .finished true => { l with phase := .serving (.start limits now) }
  | .finished false => { l with phase := .over }
  | .paused rest => { l with phase := .registering rest }

/-- The connection after an attempt to take its session out. -/
def left (l : Link) : Progress Bool → Link
  | .finished _ => { l with phase := .over }
  | .paused rest => { l with phase := .leaving rest }

/-! ## Reading -/

/-- Reads items until none is left, until reading ends, or until a text takes time. -/
def readAll (session : Session) : List Incoming → Pumps → StateM Scene (List Incoming × Pumps)
  | [], p => return ([], p)
  | item :: rest, p => do
    if p.inbound.ended then return (item :: rest, p)
    let (text?, inbound) := p.inbound.receive (← get).now item
    match text? with
    | none => readAll session rest { p with inbound }
    | some text =>
      match ← (handleText session text).proceed with
      | .finished () => readAll session rest { p with inbound }
      | .paused task => return (rest, { p with inbound, handling := some task })

/-- Goes on with the text that is being acted upon, if its time has come. -/
def handleOn (p : Pumps) : StateM Scene Pumps := do
  let now := (← get).now
  match p.handling with
  | none => return p
  | some task =>
    if now < task.wakes then return p
    match ← task.resume with
    | .finished () => return { p with inbound := p.inbound.restart now, handling := none }
    | .paused task => return { p with handling := some task }

/-- Reads what is there, and ends if the client has been silent for too long. -/
def readOn (session : Session) (inbox : List Incoming) (p : Pumps) :
    StateM Scene (List Incoming × Pumps) := do
  let p ← handleOn p
  if p.handling.isSome then return (inbox, p)
  let (inbox, p) ← readAll session inbox p
  if p.handling.isSome then return (inbox, p)
  return (inbox, { p with inbound := p.inbound.tick (← get).now })

/-- Registers the session or reads, as far as that goes at once. -/
def read (limits : HubConfig) (l : Link) : StateM Scene Link := do
  let now := (← get).now
  match l.phase with
  | .registering rest =>
    if now < rest.wakes then return l else return l.entered limits now (← rest.resume)
  | .serving pumps =>
    let (inbox, pumps) ← readOn l.session l.inbox pumps
    return { l with inbox, phase := .serving pumps }
  | .leaving _ | .over => return l

/-! ## Writing -/

/-- The way to a client: a socket is cut once its client has gone or nobody reads it any more. -/
def way (l : Link) (p : Pumps) : Sink :=
  if l.isSocket && (l.hungUp || p.inbound.ended) then .cut else l.sink

/-- What a client sends by itself because of what it has received. -/
def echo (l : Link) (fresh : List Outgoing) : List Incoming :=
  if l.isSocket && !l.hungUp then (fresh.filter (· = .ping)).map fun _ => .pong else []

/-- Writes as far as that goes at once. -/
def write (l : Link) : StateM Scene Link := do
  match l.phase with
  | .serving p =>
    let s ← get
    let hub := s.gateway.hub
    let w : Writer := ⟨p.outbound, hub.mailbox l.session.id, l.way p, []⟩
    let w := w.run s.now
    set { s with gateway := { s.gateway with hub := hub.setMailbox l.session.id w.mailbox } }
    return { l with
      phase := .serving { p with outbound := w.pump }
      sink := w.sink
      received := w.written ++ l.received
      inbox := l.inbox ++ l.echo w.written }
  | .registering _ | .leaving _ | .over => return l

/-! ## Leaving -/

/-- Reading or writing has ended, or the session has been closed. -/
def isFinished (p : Pumps) (m : Mailbox) : Bool :=
  p.inbound.ended || p.outbound.isEnded || m.tornDown

/-- Takes the session out when it is time, as far as that goes at once. -/
def drive (l : Link) : StateM Scene Link := do
  let s ← get
  match l.phase with
  | .serving p =>
    let hub := s.gateway.hub
    let m := hub.mailbox l.session.id
    if isFinished p m then
      set { s with gateway := { s.gateway with hub := hub.setMailbox l.session.id m.dropReceiver } }
      return l.left (← (unregister l.session).proceed)
    else return l
  | .leaving rest => if s.now < rest.wakes then return l else return l.left (← rest.resume)
  | .registering _ | .over => return l

/-- When the writer will do something on its own. -/
def writeTimers (p : OutboundPump) : List Nat :=
  match p.state with
  | .waiting => [p.nextPing]
  | .writing _ deadline => [deadline]
  | .ended => []

/-- When the reader will do something on its own. -/
def readTimer (p : Pumps) : Nat :=
  match p.handling with
  | some task => task.wakes
  | none => p.inbound.deadline

/-- When the connection will do something on its own. -/
def timers (l : Link) : List Nat :=
  match l.phase with
  | .registering rest | .leaving rest => [rest.wakes]
  | .serving p => readTimer p :: writeTimers p.outbound
  | .over => []

end Link

end RoomRelay
