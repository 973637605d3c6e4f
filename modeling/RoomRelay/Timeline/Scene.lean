import RoomRelay.Gateway.Registration
import RoomRelay.Gateway.State
import RoomRelay.Timeline.Obstacle

/-!
# Routines that take time

A call that takes time begins now and is answered later. In between the routine is paused, and its
call has not done anything yet. Whether the call fails is settled when it begins.

## Main definitions

* `Scene` — the gateway with what hinders its calls
* `Paused`, `Progress` — how far a routine has come
* `Routine.proceed` — a routine until it ends or pauses
* `Paused.resume` — what follows once the time has passed
-/

namespace RoomRelay

/-- The gateway, what hinders its calls, and who waits for the right moment. -/
structure Scene where
  /-- The gateway. -/
  gateway : Gateway
  /-- What hinders calls. -/
  obstacles : Table CallKind Obstacle := {}
  /-- The calls that have begun to change presence, latest first. -/
  marks : List PresenceCall := []
  /-- A session that will be registered right after a marker has been cleared. -/
  newcomer : Option Session := none

namespace Scene

/-- The time in milliseconds. -/
def now (s : Scene) : Nat := s.gateway.elapsed

/-- How a call is hindered. -/
def obstacle (s : Scene) (c : Call) : Obstacle := ((c.kind? >>= s.obstacles.get?)).getD {}

/-- Remembers a call that has begun, if it is to change presence. -/
def remember (s : Scene) : Call → Scene
  | .presence call => if call.isWrite then { s with marks := call :: s.marks } else s
  | _ => s

/-- Answers a call, or lets it fail. -/
def answer (s : Scene) (c : Call) (reason : Option String) : c.Reply × Scene :=
  match reason.bind (Call.failure? · c) with
  | some reply => (reply, s)
  | none => ((s.gateway.step c).1, { s with gateway := (s.gateway.step c).2 })

/-- The session that is to be registered now that a call has been answered. -/
def welcome (c : Call) (reason : Option String) (s : Scene) : Option Session × Scene :=
  match c, reason with
  | .presence (.setOffline _), none => (s.newcomer, { s with newcomer := none })
  | _, _ => (none, s)

end Scene

/-- A routine whose next call has begun. -/
structure Paused (α : Type) where
  /-- The call. -/
  request : Call
  /-- Why it will fail. -/
  reason : Option String
  /-- When it will be answered. -/
  wakes : Nat
  /-- What follows its reply. -/
  next : request.Reply → Routine α

/-- How far a routine has come. -/
inductive Progress (α : Type)
  /-- To its end. -/
  | finished (result : α)
  /-- To a call that takes time. -/
  | paused (rest : Paused α)

variable {α β : Type}

/-- A paused routine that goes on with another one. -/
def Paused.andThen (p : Paused α) (f : α → Routine β) : Paused β where
  request := p.request
  reason := p.reason
  wakes := p.wakes
  next reply := p.next reply >>= f

namespace Routine

/-- Begins a call: it is answered at once, or the routine pauses. -/
def begin (c : Call) (next : c.Reply → Routine α)
    (finish : Option String → StateM Scene (Progress α)) : StateM Scene (Progress α) := do
  modify (·.remember c)
  let s ← get
  let o := s.obstacle c
  if o.delay = 0 then finish o.reason else return .paused ⟨c, o.reason, s.now + o.delay, next⟩

/-- Carries a routine out until it ends or pauses, with nobody coming in between. -/
def follow : Routine α → StateM Scene (Progress α)
  | done a => return .finished a
  | call c next => begin c next fun reason => do
    let reply ← modifyGet (·.answer c reason)
    (next reply).follow

/-- Ends a call that has begun: whoever waits for it is registered, and then the routine goes on. -/
def conclude (c : Call) (reason : Option String) (next : c.Reply → Routine α)
    (goOn : c.Reply → StateM Scene (Progress α)) : StateM Scene (Progress α) := do
  let reply ← modifyGet (·.answer c reason)
  match ← modifyGet (Scene.welcome c reason) with
  | none => goOn reply
  | some session =>
    match ← (register session).follow with
    | .finished _ => goOn reply
    | .paused rest => return .paused (rest.andThen fun _ => next reply)

/-- Carries a routine out until it ends or pauses. -/
def proceed : Routine α → StateM Scene (Progress α)
  | done a => return .finished a
  | call c next =>
    begin c next fun reason => conclude c reason next fun reply => (next reply).proceed

end Routine

/-- Goes on with a paused routine once its call is to be answered. -/
def Paused.resume (p : Paused α) : StateM Scene (Progress α) :=
  Routine.conclude p.request p.reason p.next fun reply => (p.next reply).proceed

end RoomRelay
