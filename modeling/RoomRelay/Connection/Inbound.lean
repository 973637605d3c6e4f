/-!
# Reading from a client

What a client sends is read item by item until it closes the connection, until reading fails, or
until the client has been silent for too long. Only texts are acted upon; any other item just shows
that the client is alive.

## Main definitions

* `Incoming` — what can be read
* `InboundPump` — how long to wait for the next item, and whether reading has ended
* `InboundPump.receive`, `InboundPump.tick` — an item comes, or time passes
-/

namespace RoomRelay

/-- What can be read from a client. -/
inductive Incoming
  /-- A text frame. -/
  | text (text : String)
  /-- A frame of bytes. -/
  | binary
  /-- A question whether the other end is there. -/
  | ping
  /-- The answer to such a question. -/
  | pong
  /-- The client says that it is done. -/
  | close
  /-- Reading fails. -/
  | failure
  /-- Nothing will ever come. -/
  | gone
  deriving DecidableEq

/-- The item is the last one that is read. -/
def Incoming.isLast : Incoming → Bool
  | close | failure | gone => true
  | text _ | binary | ping | pong => false

/-- The text to act upon. -/
def Incoming.text? : Incoming → Option String
  | text t => some t
  | _ => none

/-- How reading stands; times are in milliseconds. -/
structure InboundPump where
  /-- How long a client may be silent. -/
  idleTimeout : Nat
  /-- When it will have been silent for too long. -/
  deadline : Nat
  /-- Nothing more is read. -/
  ended : Bool := false
  deriving DecidableEq

namespace InboundPump

/-- Reading that starts at a time. -/
def start (idleTimeout now : Nat) : InboundPump where
  idleTimeout := idleTimeout
  deadline := now + idleTimeout

/-- Waits for the next item from now on. -/
def restart (p : InboundPump) (now : Nat) : InboundPump :=
  { p with deadline := now + p.idleTimeout }

/-- Reading is over. -/
def finish (p : InboundPump) : InboundPump := { p with ended := true }

/-- Reads an item, and says what text is to be acted upon. -/
def receive (p : InboundPump) (now : Nat) (item : Incoming) : Option String × InboundPump :=
  (item.text?, if item.isLast then p.finish else p.restart now)

/-- Ends if the client has been silent for too long. -/
def tick (p : InboundPump) (now : Nat) : InboundPump :=
  if p.deadline ≤ now then p.finish else p

end InboundPump

end RoomRelay
