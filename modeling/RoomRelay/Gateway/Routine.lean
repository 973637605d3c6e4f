import RoomRelay.Failure
import RoomRelay.Gateway.Note
import RoomRelay.Hub
import RoomRelay.Presence.Call
import RoomRelay.Store.Call

/-!
# Routines

What the gateway does on request is a routine: a sequence of calls, each an undivided step on the
hub, on a store or on the presence store, where what comes next may depend on the replies. Between
two calls other routines may run. A routine says nothing about how calls are answered; that is up to
whoever runs it.

## Main definitions

* `Call`, `Call.Reply` — the undivided steps
* `Call.failure?` — the reply of a store that fails
* `Routine` — calls and what depends on their replies
* `Routine.carryOut` — a routine from its start to its end
* `Routine.after` — a routine with another one put in behind a call

## Main results

* routines form a lawful monad
-/

namespace RoomRelay

/-- The undivided steps of the gateway. -/
inductive Call
  /-- To register a session. -/
  | enroll (session : Session)
  /-- To take a session out. -/
  | withdraw (session : Session)
  /-- Whether an identity has a registered session. -/
  | isPresent (userId : String)
  /-- To make a session a member of a room. -/
  | join (id : SessionId) (roomId : String)
  /-- To take it out of a room. -/
  | leave (id : SessionId) (roomId : String)
  /-- To send a frame to the members of a room. -/
  | broadcast (envelope : Envelope)
  /-- To close all sessions for good. -/
  | drain
  /-- Whether a session has been closed. -/
  | isClosed (id : SessionId)
  /-- To ask the presence store. -/
  | presence (call : PresenceCall)
  /-- To ask the stores of rooms and messages. -/
  | storage (call : StoreCall)
  /-- To look at the clock. -/
  | now
  /-- To note something in the log. -/
  | note (note : Note)

namespace Call

/-- What a step replies. -/
abbrev Reply : Call → Type
  | enroll _ => Admission
  | withdraw _ => Withdrawal
  | isPresent _ | join _ _ | leave _ _ | isClosed _ => Bool
  | broadcast _ => BroadcastReport
  | drain => List Session
  | presence call => Except DomainFailure call.Answer
  | storage call => Except DomainFailure call.Answer
  | now => Timestamp
  | note _ => Unit

/-- The reply of a store that fails; no other step can fail. -/
def failure? (reason : String) : (call : Call) → Option call.Reply
  | presence _ => some (.error (.cache reason))
  | storage _ => some (.error (.database reason))
  | _ => none

end Call

/-- Calls, and what depends on their replies. -/
inductive Routine (α : Type) : Type
  /-- Nothing more to do. -/
  | done (result : α)
  /-- One call, and what follows its reply. -/
  | call (request : Call) (next : request.Reply → Routine α)

namespace Routine

variable {α β γ : Type}

instance [Inhabited α] : Inhabited (Routine α) := ⟨done default⟩

/-- The routine that goes on with the result of another one. -/
protected def bind : Routine α → (α → Routine β) → Routine β
  | done a, f => f a
  | call c next, f => call c fun reply => (next reply).bind f

instance : Monad Routine where
  pure := done
  bind := Routine.bind

@[simp] theorem pure_eq (a : α) : (pure a : Routine α) = done a := rfl

@[simp] theorem done_bind (a : α) (f : α → Routine β) : done a >>= f = f a := rfl

@[simp] theorem call_bind (c : Call) (next : c.Reply → Routine α) (f : α → Routine β) :
    call c next >>= f = call c fun reply => next reply >>= f := rfl

theorem bind_done (r : Routine α) : r >>= done = r := by
  induction r with
  | done a => rfl
  | call c next ih => simp only [call_bind, ih]

theorem bind_assoc (r : Routine α) (f : α → Routine β) (g : β → Routine γ) :
    r >>= f >>= g = r >>= fun a => f a >>= g := by
  induction r with
  | done a => rfl
  | call c next ih => simp only [call_bind, ih]

instance : LawfulMonad Routine :=
  LawfulMonad.mk' Routine bind_done (fun _ _ => rfl) bind_assoc

/-- Carries a routine out, each call being answered in some monad. -/
def carryOut {m : Type → Type} [Monad m] (answer : (c : Call) → m c.Reply) : Routine α → m α
  | done a => pure a
  | call c next => answer c >>= fun reply => (next reply).carryOut answer

/-- The routine of a single call. -/
def ask (c : Call) : Routine c.Reply := call c done

/-- Notes something in the log. -/
def note (n : Note) : Routine Unit := ask (.note n)

/-- The routine with another one put in right behind the first call that the test picks. -/
def after (picks : Call → Bool) (other : Routine Unit) : Routine α → Routine α
  | done a => done a
  | call c next =>
    if picks c then call c fun reply => other >>= fun _ => next reply
    else call c fun reply => after picks other (next reply)

end Routine

end RoomRelay
