import RoomRelay.Hub.Envelope
import RoomRelay.Hub.Registry

/-!
# The hub

The hub is the registry together with the queues of all sessions. Each of its operations is one
undivided step: a session that leaves the registry has its queue closed in the same step.

## Main definitions

* `Hub` — registry and queues
* `Hub.enroll`, `Hub.withdraw`, `Hub.drain` — sessions come and go
* `Hub.join`, `Hub.leave` — members come and go
* `Hub.broadcast`, `Hub.broadcastTo` — one frame for the members of a room, in any order of them
-/

namespace RoomRelay

/-- The registry and the queues of all sessions. -/
structure Hub where
  /-- Who is registered and who is in which room. -/
  registry : Registry := {}
  /-- The queue of each session that was ever made. -/
  mailboxes : Table SessionId Mailbox := {}
  deriving Inhabited

/-- What became of a session that wanted to be registered. -/
inductive Admission
  /-- The hub is closed. -/
  | refused
  /-- It is registered, perhaps in the place of another one. -/
  | admitted (evicted : Option Session)
  deriving DecidableEq

/-- What became of a session that was to be taken out. -/
structure Withdrawal where
  /-- It was registered. -/
  removed : Bool
  /-- Its identity has a session still. -/
  superseded : Bool
  deriving DecidableEq

namespace Hub

/-- The queue of a session; one that was never made is closed. -/
def mailbox (hub : Hub) (id : SessionId) : Mailbox :=
  (hub.mailboxes.get? id).getD ((Mailbox.ofCapacity 1).close.1)

/-- A session has been closed. -/
def isClosed (hub : Hub) (id : SessionId) : Bool := (hub.mailbox id).isClosed

/-- The hub with the queue of a session replaced. -/
def setMailbox (hub : Hub) (id : SessionId) (m : Mailbox) : Hub :=
  { hub with mailboxes := hub.mailboxes.insert id m }

/-- The hub with an open queue for a new session. -/
def openSession (hub : Hub) (session : Session) (capacity : Nat) : Hub :=
  hub.setMailbox session.id (.ofCapacity capacity)

/-- Puts a frame into the queue of a session. -/
def enqueue (hub : Hub) (id : SessionId) (frame : Frame) : Except EnqueueFault Hub :=
  hub.setMailbox id <$> (hub.mailbox id).enqueue frame

/-- Closes the queue of a session and says whether it was open. -/
def close (hub : Hub) (id : SessionId) : Bool × Hub :=
  ((hub.mailbox id).close.2, hub.setMailbox id (hub.mailbox id).close.1)

/-- Takes a session out of the registry and closes it; `none` if it is not registered. -/
def remove (hub : Hub) (id : SessionId) : Option Hub :=
  (hub.registry.remove id).map fun (_, registry) => ({ hub with registry }.close id).2

/-- Registers a session as the one of its identity; another one is closed. A closed hub closes the
session instead. -/
def enroll (hub : Hub) (session : Session) : Admission × Hub :=
  if hub.registry.closed then (.refused, (hub.close session.id).2)
  else
    match hub.registry.insert session with
    | (none, registry) => (.admitted none, { hub with registry })
    | (some evicted, registry) => (.admitted evicted, ({ hub with registry }.close evicted.id).2)

/-- Whether the identity has a registered session. -/
def isPresent (hub : Hub) (userId : String) : Bool := (hub.registry.current userId).isSome

/-- Takes a session out of the registry, if it is there, and closes it. -/
def withdraw (hub : Hub) (session : Session) : Withdrawal × Hub :=
  match hub.remove session.id with
  | some rest => (⟨true, rest.isPresent session.userId⟩, rest)
  | none => (⟨false, hub.isPresent session.userId⟩, hub)

/-- Makes a registered session a member of a room, and says whether it was none before. -/
def join (hub : Hub) (id : SessionId) (roomId : String) : Bool × Hub :=
  ((hub.registry.join id roomId).1, { hub with registry := (hub.registry.join id roomId).2 })

/-- Takes a member out of a room, and says whether it was one. -/
def leave (hub : Hub) (id : SessionId) (roomId : String) : Bool × Hub :=
  ((hub.registry.leave id roomId).1, { hub with registry := (hub.registry.leave id roomId).2 })

/-- Offers a frame to one session; one that cannot take it because its queue is full is taken out of
the registry and closed. -/
def offer (frame : Frame) (state : BroadcastReport × Hub) (session : Session) :
    BroadcastReport × Hub :=
  match state.2.enqueue session.id frame with
  | .ok hub => ({ state.1 with delivered := state.1.delivered + 1 }, hub)
  | .error .full =>
    ({ state.1 with overflowed := state.1.overflowed + 1 },
      (state.2.remove session.id).getD state.2)
  | .error .closed => ({ state.1 with unreachable := state.1.unreachable + 1 }, state.2)

/-- Offers the frame of an envelope to some sessions, one after the other. -/
def broadcastTo (hub : Hub) (members : List Session) (envelope : Envelope) :
    BroadcastReport × Hub :=
  (members.filter (some ·.id ≠ envelope.exclude)).foldl (offer envelope.frame) ({}, hub)

/-- Offers the frame of an envelope to the members of its room. -/
def broadcast (hub : Hub) (envelope : Envelope) : BroadcastReport × Hub :=
  hub.broadcastTo (hub.registry.members envelope.roomId) envelope

/-- Takes all sessions out of the registry, closes them, and admits none any more. -/
def drain (hub : Hub) : List Session × Hub :=
  (hub.registry.drain.1,
    hub.registry.drain.1.foldl (fun h session => (h.close session.id).2)
      { hub with registry := hub.registry.drain.2 })

/-- The hub for people. -/
def describe (hub : Hub) : String :=
  "Hub \x7b sessions: " ++ toString hub.registry.sessionCount ++ ", rooms: " ++
    toString hub.registry.roomCount ++ " \x7d"

end Hub

end RoomRelay
