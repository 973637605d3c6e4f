import RoomRelay.Gateway.Registration

/-!
# What a routine is going to do

Between two calls of a routine anything may happen, and what it does next depends on replies that
nobody knows in advance. Two things can be said of it nevertheless: that it is going to make a
certain call whatever the replies are, and that it makes no calls but some and ends with certain
results only. Both go through the routine call by call, and both are put together along `>>=`.

## Main definitions

* `Routine.Reaches` — a call that the routine is going to make
* `Routine.Within` — which calls it may make, and with what it may end
* `afterEnroll`, `afterWithdraw` — what registering and taking out a session go on with
* `Call.IsBystander` — a call that neither registers a session nor changes a marker

## Main results

* `Routine.Reaches.bind`, `Routine.reaches_bind_of_forall` — a call before or after `>>=`
* `Routine.Within.bind` — calls and results along `>>=`
* `register_eq`, `unregister_eq` — registering and taking out, cut behind the first call
-/

namespace RoomRelay

namespace Routine

variable {α β : Type} {goal request : Call} {allowed : (c : Call) → c.Reply → Prop}
variable {calls : Call → Prop} {results : α → Prop}

/-- The routine is going to make a certain call, as long as the replies are among those allowed. -/
def Reaches (goal : Call) (allowed : (c : Call) → c.Reply → Prop) : Routine α → Prop
  | done _ => False
  | call request next =>
    request = goal ∨ ∀ reply, allowed request reply → (next reply).Reaches goal allowed

theorem Reaches.bind {r : Routine α} (h : r.Reaches goal allowed) (f : α → Routine β) :
    (r >>= f).Reaches goal allowed := by
  induction r with
  | done a => exact h.elim
  | call request next ih => exact h.imp_right fun hn reply ha => ih reply (hn reply ha)

theorem reaches_bind_of_forall (r : Routine α) {f : α → Routine β}
    (h : ∀ a, (f a).Reaches goal allowed) : (r >>= f).Reaches goal allowed := by
  induction r with
  | done a => exact h a
  | call request next ih => exact Or.inr fun reply _ => ih reply

/-- All calls that the routine may make are of one kind, and so are the results that it may end
with. -/
def Within (calls : Call → Prop) (results : α → Prop) : Routine α → Prop
  | done a => results a
  | call request next => calls request ∧ ∀ reply, (next reply).Within calls results

@[simp] theorem within_done {a : α} : (done a).Within calls results ↔ results a := Iff.rfl

theorem Within.mono {r : Routine α} {calls' : Call → Prop} {results' : α → Prop}
    (h : r.Within calls results) (hc : ∀ c, calls c → calls' c)
    (hr : ∀ a, results a → results' a) : r.Within calls' results' := by
  induction r with
  | done a => exact hr a h
  | call request next ih => exact ⟨hc request h.1, fun reply => ih reply (h.2 reply)⟩

theorem Within.bind {among : β → Prop} {r : Routine α} {f : α → Routine β}
    (h : r.Within calls results) (hf : ∀ a, results a → (f a).Within calls among) :
    (r >>= f).Within calls among := by
  induction r with
  | done a => exact hf a h
  | call request next ih => exact ⟨h.1, fun reply => ih reply (h.2 reply)⟩

end Routine

open Routine

/-! ### Sessions come and go -/

/-- Notes something if there is reason to. -/
def noteIf (reason : Bool) (n : Note) : Routine Unit := if reason then note n else done ()

/-- What registering a session goes on with. -/
def afterEnroll (session : Session) : Admission → Routine Bool
  | .refused => note .sessionRefused >>= fun _ => done false
  | .admitted evicted =>
    noteIf evicted.isSome .sessionReplaced >>= fun _ =>
      markOnline session.userId >>= fun _ => note .sessionRegistered >>= fun _ => done true

/-- What taking out a session goes on with. -/
def afterWithdraw (session : Session) (outcome : Withdrawal) : Routine Bool :=
  noteIf outcome.removed .sessionUnregistered >>= fun _ =>
    (if outcome.superseded then done () else clearMarker session.userId) >>= fun _ =>
      done outcome.removed

theorem register_eq (session : Session) :
    register session = call (.enroll session) (afterEnroll session) := by
  unfold register
  simp only [ask, call_bind, done_bind]
  congr 1
  funext reply
  cases reply with
  | refused => rfl
  | admitted evicted =>
    simp only [afterEnroll, noteIf]
    split <;> rfl

theorem unregister_eq (session : Session) :
    unregister session = call (.withdraw session) (afterWithdraw session) := by
  unfold unregister
  simp only [ask, call_bind, done_bind]
  congr 1
  funext outcome
  obtain ⟨removed, superseded⟩ := outcome
  cases removed <;> cases superseded <;> rfl

/-! ### Errands that do not care about presence -/

/-- The call neither registers a session nor asks the presence store. -/
def Call.IsBystander : Call → Prop
  | enroll _ | presence _ => False
  | _ => True

/-- The routine neither registers a session nor asks the presence store. -/
abbrev Routine.IsBystander {α : Type} (r : Routine α) : Prop :=
  r.Within Call.IsBystander fun _ => True

theorem isBystander_note (n : Note) : (note n).IsBystander := ⟨trivial, fun _ => trivial⟩

theorem isBystander_noteIf (reason : Bool) (n : Note) : (noteIf reason n).IsBystander := by
  cases reason with
  | false => exact trivial
  | true => exact isBystander_note n

theorem isBystander_noteTimes (n : Note) (count : Nat) : (noteTimes n count).IsBystander := by
  induction count with
  | zero => exact trivial
  | succ count ih => exact (isBystander_note n).bind fun _ _ => ih

theorem isBystander_joinRoom (session : Session) (roomId : String) :
    (joinRoom session roomId).IsBystander :=
  ⟨trivial, fun _ => (isBystander_note _).bind fun _ _ => trivial⟩

theorem isBystander_leaveRoom (session : Session) (roomId : String) :
    (leaveRoom session roomId).IsBystander :=
  ⟨trivial, fun _ => (isBystander_note _).bind fun _ _ => trivial⟩

theorem isBystander_broadcast (envelope : Envelope) : (broadcast envelope).IsBystander :=
  ⟨trivial, fun _ => (isBystander_noteTimes _ _).bind fun _ _ => trivial⟩

end RoomRelay
