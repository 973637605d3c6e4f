import RoomRelay.Config
import RoomRelay.Session.Mailbox

/-!
# Writing to a client

The frames of a queue are written one at a time in their order. Between them a ping goes out
whenever one is due. A write that fails or takes too long is the last one.

## Main definitions

* `Outgoing` — what is written
* `Sink` — the writing half of a connection, which takes messages while it has room
* `OutboundPump` — what is being written, and when the next ping is due
* `Writer`, `Writer.run` — the pump with its queue and its sink
-/

namespace RoomRelay

/-- What is written to a client. -/
inductive Outgoing
  /-- A text frame. -/
  | text (frame : Frame)
  /-- A question whether the client is there. -/
  | ping
  deriving DecidableEq

/-- What becomes of a write. -/
inductive WriteOutcome
  /-- The message has been written. -/
  | written
  /-- It waits for room. -/
  | stalled
  /-- It cannot be written. -/
  | failed
  deriving DecidableEq

/-- The writing half of a connection. -/
structure Sink where
  /-- How many messages it has room for; no limit if `none`. -/
  room : Option Nat := none
  /-- A message without room fails instead of waiting. -/
  refuses : Bool := false
  deriving DecidableEq

namespace Sink

/-- Offers one message. -/
def offer (s : Sink) : WriteOutcome × Sink :=
  match s.room with
  | none => (.written, s)
  | some (n + 1) => (.written, { s with room := some n })
  | some 0 => (if s.refuses then .failed else .stalled, s)

/-- The sink with room for so many messages from now on, or without a limit. -/
def widen (s : Sink) (room : Option Nat) : Sink := { s with room }

/-- The sink after the other end has gone. -/
def cut : Sink where
  room := some 0
  refuses := true

end Sink

/-- What the writer is at. -/
inductive OutboundState
  /-- It waits for a frame or for the time of a ping. -/
  | waiting
  /-- It writes a message, and gives up at a time. -/
  | writing (message : Outgoing) (deadline : Nat)
  /-- It is done. -/
  | ended
  deriving DecidableEq

/-- How writing stands; times are in milliseconds. -/
structure OutboundPump where
  /-- How long one write may take. -/
  writeTimeout : Nat
  /-- How long after a ping the next one is due. -/
  pingInterval : Nat
  /-- When the next ping is due. -/
  nextPing : Nat
  /-- What it is at. -/
  state : OutboundState := .waiting
  deriving DecidableEq

namespace OutboundPump

/-- A ping that is later than this, in milliseconds, moves all following ones. -/
def pingTolerance : Nat := 5

/-- Writing that starts at a time. -/
def start (limits : HubConfig) (now : Nat) : OutboundPump where
  writeTimeout := limits.writeTimeout * 1000
  pingInterval := limits.pingInterval * 1000
  nextPing := now + limits.pingInterval * 1000

/-- Writing is over. -/
def isEnded (p : OutboundPump) : Bool := p.state = .ended

/-- Starts to write a message. -/
def beginWrite (p : OutboundPump) (now : Nat) (message : Outgoing) : OutboundPump :=
  { p with state := .writing message (now + p.writeTimeout) }

/-- When the ping after the one that goes out now is due: an interval after the time at which this
one was due, or an interval from now if it is late. -/
def followingPing (p : OutboundPump) (now : Nat) : Nat :=
  (if now ≤ p.nextPing + pingTolerance then p.nextPing else now) + p.pingInterval

/-- Starts to write a ping. -/
def beginPing (p : OutboundPump) (now : Nat) : OutboundPump :=
  { p with nextPing := p.followingPing now }.beginWrite now .ping

/-- What follows the outcome of a write; one that waits for room is given up at its deadline. -/
def conclude (p : OutboundPump) (now deadline : Nat) : WriteOutcome → OutboundPump
  | .written => { p with state := .waiting }
  | .failed => { p with state := .ended }
  | .stalled => if deadline ≤ now then { p with state := .ended } else p

/-- Starts the next write: the frame that has waited longest, or else a ping that is due. Writing
ends when the queue is closed and empty. `none` if there is nothing to do yet. -/
def next? (p : OutboundPump) (now : Nat) (m : Mailbox) : Option (OutboundPump × Mailbox) :=
  match m.take with
  | some (frame, rest) => some (p.beginWrite now (.text frame), rest)
  | none =>
    if m.isFinished then some ({ p with state := .ended }, m)
    else if p.nextPing ≤ now then some (p.beginPing now, m)
    else none

end OutboundPump

/-- The writer of a connection with its queue, its sink and what has gone through the sink, latest
message first. -/
structure Writer where
  /-- How writing stands. -/
  pump : OutboundPump
  /-- The queue. -/
  mailbox : Mailbox
  /-- The writing half. -/
  sink : Sink
  /-- What has been written. -/
  written : List Outgoing := []

namespace Writer

/-- Offers the message that is being written to the sink. -/
def push (w : Writer) (now deadline : Nat) (message : Outgoing) : Writer :=
  { w with
    pump := w.pump.conclude now deadline w.sink.offer.1
    sink := w.sink.offer.2
    written := if w.sink.offer.1 = .written then message :: w.written else w.written }

/-- The next thing that the writer does at once; `none` if it has to wait or is done. -/
def step? (w : Writer) (now : Nat) : Option Writer :=
  match w.pump.state with
  | .ended => none
  | .waiting =>
    (w.pump.next? now w.mailbox).map fun (pump, mailbox) => { w with pump, mailbox }
  | .writing message deadline =>
    let after := w.push now deadline message
    if after.pump.state = w.pump.state then none else some after

/-- Does what can be done at once, at most so many steps of it. -/
def advance (now : Nat) : (steps : Nat) → Writer → Writer
  | 0, w => w
  | steps + 1, w =>
    match w.step? now with
    | some after => advance now steps after
    | none => w

/-- Does all that can be done at once: each frame takes two steps, and so may a write that has begun
before, a ping and the end. -/
def run (now : Nat) (w : Writer) : Writer := advance now (2 * w.mailbox.queue.length + 6) w

end Writer

end RoomRelay
