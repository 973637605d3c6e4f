import RoomRelay.Gateway.Routine
import RoomRelay.Presence.Memory
import RoomRelay.Store.Messages
import RoomRelay.Store.Rooms
import RoomRelay.Store.Supply

/-!
# The gateway

The gateway is the hub with the stores that the services work on. It answers each call in one step.

## Main definitions

* `Gateway` — hub, stores, presence and the supply of identifiers and clock readings
* `Gateway.step` — the answer to a call, and the gateway after it
* `Routine.run` — a routine from its start to its end, with nothing in between
-/

namespace RoomRelay

/-- The hub and the stores. -/
structure Gateway where
  /-- Sessions, rooms and queues. -/
  hub : Hub := {}
  /-- The messages. -/
  messages : MessageStore := {}
  /-- The rooms. -/
  rooms : RoomStore := {}
  /-- Who is online and who types. -/
  presence : PresenceMemory := {}
  /-- Fresh identifiers and the clock. -/
  supply : Supply
  /-- Milliseconds since the start, for what lapses. -/
  elapsed : Nat := 0
  /-- The log, latest note first. -/
  notes : List Note := []

namespace Gateway

/-- Keeps a message under a fresh identifier. -/
def createMessage (g : Gateway) (draft : MessageDraft) : Message × Gateway :=
  match g.supply.freshId with
  | (id, supply) =>
    match supply.stamp with
    | (now, supply) =>
      (.ofDraft draft id now,
        { g with supply, messages := g.messages.append (.ofDraft draft id now) })

/-- Keeps a room under a fresh identifier. -/
def createRoom (g : Gateway) (plan : RoomPlan) (memberIds : List String) : Room × Gateway :=
  match g.supply.freshId with
  | (id, supply) =>
    match supply.stamp with
    | (now, supply) =>
      (.ofPlan plan memberIds id now,
        { g with supply, rooms := g.rooms.add (.ofPlan plan memberIds id now) })

/-- Notes that a room is active; an unknown room takes no clock reading. -/
def touch (g : Gateway) (roomId : Uuid) : Gateway :=
  match g.rooms.get? roomId with
  | none => g
  | some _ =>
    match g.supply.stamp with
    | (now, supply) => { g with supply, rooms := g.rooms.touch roomId now }

/-- Answers a call to the stores. -/
def store (g : Gateway) : (call : StoreCall) → call.Answer × Gateway
  | .createMessage draft => g.createMessage draft
  | .findMessages roomId limit offset => (g.messages.page roomId limit offset, g)
  | .createRoom plan memberIds => g.createRoom plan memberIds
  | .findRoom id => (g.rooms.get? id, g)
  | .roomsOf userId => (g.rooms.roomsOf userId, g)
  | .membersOf roomId => (g.rooms.membersOf roomId, g)
  | .touch roomId => ((), g.touch roomId)

/-- Answers a call to the presence store. -/
def mark (g : Gateway) (call : PresenceCall) : call.Answer × Gateway :=
  ((g.presence.answer g.elapsed call).1,
    { g with presence := (g.presence.answer g.elapsed call).2 })

/-- Answers a call. -/
def step (g : Gateway) : (call : Call) → call.Reply × Gateway
  | .enroll session => ((g.hub.enroll session).1, { g with hub := (g.hub.enroll session).2 })
  | .withdraw session => ((g.hub.withdraw session).1, { g with hub := (g.hub.withdraw session).2 })
  | .isPresent userId => (g.hub.isPresent userId, g)
  | .join id roomId => ((g.hub.join id roomId).1, { g with hub := (g.hub.join id roomId).2 })
  | .leave id roomId => ((g.hub.leave id roomId).1, { g with hub := (g.hub.leave id roomId).2 })
  | .broadcast envelope =>
    ((g.hub.broadcast envelope).1, { g with hub := (g.hub.broadcast envelope).2 })
  | .drain => (g.hub.drain.1, { g with hub := g.hub.drain.2 })
  | .isClosed id => (g.hub.isClosed id, g)
  | .presence call => (.ok (g.mark call).1, (g.mark call).2)
  | .storage call => (.ok (g.store call).1, (g.store call).2)
  | .now => (g.supply.now, g)
  | .note n => ((), { g with notes := n :: g.notes })

/-- The gateway with an open queue for a new session of an identity. -/
def newSession (g : Gateway) (userId : String) (capacity : Nat) : Session × Gateway :=
  match g.supply.freshId with
  | (id, supply) =>
    (⟨id, userId⟩, { g with supply, hub := g.hub.openSession ⟨id, userId⟩ capacity })

end Gateway

/-- Runs a routine from its start to its end. -/
def Routine.run {α : Type} (routine : Routine α) : StateM Gateway α :=
  routine.carryOut fun c g => g.step c

end RoomRelay
