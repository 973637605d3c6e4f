import RoomRelay.Gateway.Routine

/-!
# Services

A service is a routine that may fail for reasons of the domain; where it fails, it ends.

## Main definitions

* `Service` — routines that may fail
* `Service.store`, `Service.presence` — single calls
-/

namespace RoomRelay

/-- A routine that may fail. -/
abbrev Service (α : Type) := ExceptT ServiceFailure Routine α

namespace Service

/-- Fails if the answer is a failure of the domain. -/
def lift {α : Type} (answer : Routine (Except DomainFailure α)) : Service α :=
  ExceptT.mk do return (← answer).mapError .domain

/-- Asks the stores of rooms and messages. -/
def store (call : StoreCall) : Service call.Answer := lift (Routine.ask (.storage call))

/-- Asks the presence store. -/
def presence (call : PresenceCall) : Service call.Answer := lift (Routine.ask (.presence call))

/-- Ends with a failure. -/
def fail {α : Type} (failure : ServiceFailure) : Service α := throw failure

/-- Fails if a request breaks its limits. -/
def check (limits : Except LengthFault Unit) : Service Unit :=
  match limits with
  | .ok () => return ()
  | .error fault => fail (.validation fault.message)

end Service

end RoomRelay
