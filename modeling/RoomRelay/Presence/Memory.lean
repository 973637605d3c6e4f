import RoomRelay.Presence.Call
import RoomRelay.Table

/-!
# Presence in memory

Markers are a set of identities. Who types in a room is a set that lapses as a whole once a time to
live has passed since someone last started to type there.

## Main definitions

* `PresenceMemory` — markers and typing sets
* `PresenceMemory.answer` — one call at a time
-/

namespace RoomRelay

/-- How long a typing set lives after the last start, in seconds. -/
def typingLifetime : Nat := 10

/-- Who types in a room. -/
structure TypingSet where
  /-- The identities. -/
  users : FinSet String := {}
  /-- When someone last started to type, in milliseconds. -/
  touched : Nat

/-- Presence as it is kept in memory. -/
structure PresenceMemory where
  /-- How long a typing set lives after the last start, in milliseconds. -/
  lifetime : Nat := typingLifetime * 1000
  /-- The identities whose markers are set. -/
  online : FinSet String := {}
  /-- Who types, for each room. -/
  typing : Table String TypingSet := {}
  deriving Inhabited

namespace PresenceMemory

/-- The typing set has lapsed. -/
def hasLapsed (p : PresenceMemory) (now : Nat) (set : TypingSet) : Bool :=
  p.lifetime ≤ now - set.touched

/-- Who types in a room, as far as it counts for someone who starts now. -/
def typists (p : PresenceMemory) (now : Nat) (roomId : String) : FinSet String :=
  match p.typing.get? roomId with
  | some set => if p.hasLapsed now set then {} else set.users
  | none => {}

/-- Notes that an identity types in a room. -/
def addTyping (p : PresenceMemory) (now : Nat) (roomId userId : String) : PresenceMemory :=
  { p with typing := p.typing.insert roomId ⟨(p.typists now roomId).insert userId, now⟩ }

/-- Notes that an identity has stopped; this does not make the set live longer. -/
def removeTyping (p : PresenceMemory) (roomId userId : String) : PresenceMemory :=
  match p.typing.get? roomId with
  | none => p
  | some set =>
    if (set.users.erase userId).isEmpty then { p with typing := p.typing.erase roomId }
    else { p with typing := p.typing.insert roomId { set with users := set.users.erase userId } }

/-- The texts in the order of their characters. -/
def sorted (texts : List String) : List String := texts.mergeSort fun a b => a ≤ b

/-- Who types in a room, in order; a set that has lapsed is thrown away. -/
def listTyping (p : PresenceMemory) (now : Nat) (roomId : String) :
    List String × PresenceMemory :=
  match p.typing.get? roomId with
  | none => ([], p)
  | some set =>
    if p.hasLapsed now set then ([], { p with typing := p.typing.erase roomId })
    else (sorted set.users.toList, p)

/-- Answers a call at a time given in milliseconds. -/
def answer (p : PresenceMemory) (now : Nat) : (call : PresenceCall) → call.Answer × PresenceMemory
  | .setOnline userId => ((), { p with online := p.online.insert userId })
  | .setOffline userId => ((), { p with online := p.online.erase userId })
  | .isOnline userId => (userId ∈ p.online, p)
  | .addTyping roomId userId => ((), p.addTyping now roomId userId)
  | .removeTyping roomId userId => ((), p.removeTyping roomId userId)
  | .listTyping roomId => p.listTyping now roomId

end PresenceMemory

end RoomRelay
