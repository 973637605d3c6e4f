import RoomRelay.Gateway.Dispatch
import RoomRelay.Proofs.Gateway.Traffic

/-!
# Routines carried out at a stretch

A routine that nothing interrupts makes its calls one after the other, each in the gateway that the
one before it has left. What comes of a request to send a message is said once for the socket and
for the endpoint, which differ in how they go on.

## Main definitions

* `Routine.envelopes` — what a routine broadcasts when it is carried out
* `announce`, `deliver` — sending a message, with what follows left open
* `Gateway.delivery` — what comes of it in a gateway

## Main results

* `sendMessage_bind` — storing a message and telling its room, call by call
* `Routine.run_deliver`, `Routine.envelopes_deliver` — the same carried out at a stretch
-/

namespace RoomRelay

variable {α β ε : Type}

namespace Routine

@[simp] theorem run_done (a : α) (g : Gateway) : (done a).run g = (a, g) := rfl

@[simp] theorem run_call (c : Call) (next : c.Reply → Routine α) (g : Gateway) :
    (call c next).run g = (next (g.step c).1).run (g.step c).2 := rfl

/-- A routine that goes on with another one does so however its calls are answered. -/
theorem carryOut_bind {m : Type → Type} [Monad m] [LawfulMonad m]
    (answer : (c : Call) → m c.Reply) (r : Routine α) (f : α → Routine β) :
    (r >>= f).carryOut answer = r.carryOut answer >>= fun a => (f a).carryOut answer := by
  induction r with
  | done a => simp [carryOut]
  | call c next ih => simp [carryOut, ih]

@[simp] theorem run_bind (r : Routine α) (f : α → Routine β) (g : Gateway) :
    (r >>= f).run g = (f (r.run g).1).run (r.run g).2 := by
  have hbind : (r >>= f).run = r.run >>= fun a => (f a).run := carryOut_bind _ r f
  exact congrFun hbind g

/-- What a routine broadcasts when it is carried out. -/
def envelopes : Routine α → Gateway → List Envelope
  | done _, _ => []
  | call (.broadcast envelope) next, g =>
    envelope :: (next (g.step (.broadcast envelope)).1).envelopes (g.step (.broadcast envelope)).2
  | call c next, g => (next (g.step c).1).envelopes (g.step c).2

theorem envelopes_bind (r : Routine α) (f : α → Routine β) (g : Gateway) :
    (r >>= f).envelopes g = r.envelopes g ++ (f (r.run g).1).envelopes (r.run g).2 := by
  induction r generalizing g with
  | done a => rfl
  | call c next ih =>
    cases c with
    | broadcast envelope => exact congrArg (envelope :: ·) (ih _ _)
    | _ => exact ih _ _

/-- A gateway with some more notes in its log. -/
theorem run_noteTimes (n : Note) (count : Nat) (g : Gateway) :
    (noteTimes n count).run g = ((), { g with notes := List.replicate count n ++ g.notes }) := by
  induction count generalizing g with
  | zero => rfl
  | succ count ih =>
    rw [List.replicate_succ', List.append_assoc]
    exact ih _

theorem envelopes_noteTimes (n : Note) (count : Nat) (g : Gateway) :
    (noteTimes n count).envelopes g = [] := by
  induction count generalizing g with
  | zero => rfl
  | succ count ih => exact ih _

/-! ### Routines that may fail -/

theorem run_lift (r : Routine α) :
    (ExceptT.lift r : ExceptT ε Routine α).run = r >>= fun a => done (.ok a) := by
  rw [ExceptT.run_lift, map_eq_pure_bind]
  rfl

/-- A routine that cannot fail, of which only the calls matter. -/
theorem run_discard_lift (r : Routine α) :
    (Functor.discard (ExceptT.lift r) : ExceptT ε Routine Unit).run =
      r >>= fun _ => done (.ok ()) := by
  rw [Functor.discard, map_const, Function.comp, ExceptT.run_map, ExceptT.run_lift,
    Functor.map_map, map_eq_pure_bind]
  rfl

theorem run_discard_lift_bind (r : Routine α) (f : Unit → ExceptT ε Routine β) :
    (Functor.discard (ExceptT.lift r) >>= f).run = r >>= fun _ => (f ()).run := by
  rw [ExceptT.run_bind, run_discard_lift]
  exact Routine.bind_assoc _ _ _

section

variable {g g' : Gateway} {r : ExceptT ε Routine α} {a : α}

/-- A routine that may fail goes on where it does not. -/
theorem run_bind_of_ok (h : r.run.run g = (.ok a, g')) (f : α → ExceptT ε Routine β) :
    (r >>= f).run.run g = (f a).run.run g' := by
  rw [ExceptT.run_bind, run_bind, h]

theorem run_discard_of_ok (h : r.run.run g = (.ok a, g')) :
    (Functor.discard r : ExceptT ε Routine Unit).run.run g = (.ok (), g') := by
  rw [Functor.discard, map_const, Function.comp, map_eq_pure_bind, run_bind_of_ok h]
  rfl

end

end Routine

open Routine

/-! ### Sending a message -/

/-- Why a request is refused before any store is asked. -/
def SendMessage.refusal? (request : SendMessage) : Option ServiceFailure :=
  match request.check with
  | .error fault => some (.validation fault.message)
  | .ok () => if Text.isBlank request.content then some (.domain .emptyContent) else none

section Deliver

variable (told : Message → Routine α) (refused : ServiceFailure → Routine α)

/-- Notes that the room of a stored message is active, and tells the room. -/
def announce (message : Message) : Routine α :=
  .call (.storage (.touch message.roomId)) fun
    | .ok () => .call (.broadcast (messageEnvelope message)) fun report =>
      noteTimes .queueOverflow report.overflowed >>= fun _ => told message
    | .error failure => refused (.domain failure)

/-- Stores a message and tells its room, or refuses to. -/
def deliver (senderId : String) (request : SendMessage) : Routine α :=
  match request.refusal? with
  | some failure => refused failure
  | none => .call (.storage (.findRoom request.roomId)) fun
    | .ok (some _) => .call (.storage (.createMessage (request.draft senderId))) fun
      | .ok message => announce told refused message
      | .error failure => refused (.domain failure)
    | .ok none => refused (.domain (.unknownRoom request.roomId))
    | .error failure => refused (.domain failure)

/-- Storing a message and telling its room, call by call. -/
theorem sendMessage_bind (senderId : String) (request : SendMessage) :
    ((sendMessage senderId request).run >>= fun
      | .ok message => broadcast (messageEnvelope message) >>= fun _ => told message
      | .error failure => refused failure) = deliver told refused senderId request := by
  -- Between two calls both sides compute alike; a call is followed reply by reply.
  have htell : ∀ message, (broadcast (messageEnvelope message) >>= fun _ => told message) =
      .call (.broadcast (messageEnvelope message)) fun report =>
        noteTimes .queueOverflow report.overflowed >>= fun _ => told message := by
    intro message
    refine congrArg (call _) (funext fun report => ?_)
    exact Routine.bind_assoc (noteTimes .queueOverflow report.overflowed) _ _
  unfold sendMessage deliver SendMessage.refusal? Service.check
  cases hcheck : request.check with
  | error fault => rfl
  | ok _ =>
    by_cases hblank : Text.isBlank request.content = true
    · simp [SendMessage.draft, MessageDraft.isEmpty, hblank, Service.fail]
    · simp only [SendMessage.draft, MessageDraft.isEmpty, hblank]
      refine congrArg (call _) (funext fun reply => ?_)
      rcases reply with failure | _ | room
      · rfl
      · rfl
      · refine congrArg (call _) (funext fun reply => ?_)
        rcases reply with failure | message
        · rfl
        · refine congrArg (call _) (funext fun reply => ?_)
          rcases reply with failure | _
          · rfl
          · exact htell message

theorem deliver_bind (senderId : String) (request : SendMessage) (f : α → Routine β) :
    deliver told refused senderId request >>= f =
      deliver (fun message => told message >>= f) (fun failure => refused failure >>= f) senderId
        request := by
  unfold deliver
  split
  · rfl
  · refine congrArg (call _) (funext fun reply => ?_)
    rcases reply with failure | _ | room
    · rfl
    · rfl
    · refine congrArg (call _) (funext fun reply => ?_)
      rcases reply with failure | message
      · rfl
      · refine congrArg (call _) (funext fun reply => ?_)
        rcases reply with failure | _
        · rfl
        · refine congrArg (call _) (funext fun report => ?_)
          exact Routine.bind_assoc _ _ _

end Deliver

/-- What comes of a request to send a message: the message and the gateway in which its room has
been told, or why it is refused. -/
def Gateway.delivery (g : Gateway) (senderId : String) (request : SendMessage) :
    Except ServiceFailure (Message × Gateway) :=
  match request.refusal?, g.rooms.get? request.roomId with
  | some failure, _ => .error failure
  | none, none => .error (.domain (.unknownRoom request.roomId))
  | none, some _ =>
    let (message, stored) := g.createMessage (request.draft senderId)
    let (report, told) := (stored.touch message.roomId).step (.broadcast (messageEnvelope message))
    .ok (message,
      { told with notes := List.replicate report.overflowed .queueOverflow ++ told.notes })

/-- A request within its limits for a room that exists is not refused. -/
theorem Gateway.delivery_ne_error {g : Gateway} {senderId : String} {request : SendMessage}
    (hrefusal : request.refusal? = none) (hroom : (g.rooms.get? request.roomId).isSome = true)
    (reason : ServiceFailure) : g.delivery senderId request ≠ .error reason := by
  obtain ⟨room, hroom⟩ := Option.isSome_iff_exists.mp hroom
  simp [delivery, hrefusal, hroom]

/-- A message is added to the history of its own room. -/
theorem MessageStore.history_append {s : MessageStore} {m : Message} {roomId : Uuid} :
    (s.append m).history roomId =
      s.history roomId ++ if m.roomId = roomId then [m] else [] := by
  unfold append history
  rw [Table.get?_insert]
  split
  · rename_i h
    rw [h]
    rfl
  · rw [List.append_nil]

theorem Gateway.messages_touch {g : Gateway} {roomId : Uuid} :
    (g.touch roomId).messages = g.messages := by
  unfold touch
  split <;> rfl

/-- A message that is sent is stored under its sender's name, and its room is told. -/
theorem Gateway.of_delivery {g g' : Gateway} {senderId : String} {request : SendMessage}
    {message : Message} (h : g.delivery senderId request = .ok (message, g')) :
    ∃ id now, message = .ofDraft (request.draft senderId) id now ∧
      g'.messages = g.messages.append message ∧
      g'.hub = (g.hub.broadcast (messageEnvelope message)).2 := by
  unfold delivery at h
  split at h
  · cases h
  · cases h
  · obtain ⟨rfl, rfl⟩ := Prod.mk.inj (Except.ok.inj h)
    refine ⟨_, _, rfl, messages_touch, ?_⟩
    simp only [hub_touch]

namespace Routine

variable (told : Message → Routine α) (refused : ServiceFailure → Routine α)

theorem run_deliver (senderId : String) (request : SendMessage) (g : Gateway) :
    (deliver told refused senderId request).run g =
      match g.delivery senderId request with
      | .ok (message, g') => (told message).run g'
      | .error failure => (refused failure).run g := by
  unfold deliver Gateway.delivery
  cases request.refusal? with
  | some failure => rfl
  | none =>
    simp only [run_call, Gateway.step, Gateway.store]
    cases g.rooms.get? request.roomId with
    | none => rfl
    | some room => simp only [run_call, announce, Gateway.step, Gateway.store, run_bind,
        run_noteTimes]

theorem envelopes_deliver (senderId : String) (request : SendMessage) (g : Gateway) :
    (deliver told refused senderId request).envelopes g =
      match g.delivery senderId request with
      | .ok (message, g') => messageEnvelope message :: (told message).envelopes g'
      | .error failure => (refused failure).envelopes g := by
  unfold deliver Gateway.delivery
  cases request.refusal? with
  | some failure => rfl
  | none =>
    simp only [envelopes, Gateway.step, Gateway.store]
    cases g.rooms.get? request.roomId with
    | none => rfl
    | some room => simp only [envelopes, announce, Gateway.step, Gateway.store, envelopes_bind,
        envelopes_noteTimes, run_noteTimes, List.nil_append]

end Routine

end RoomRelay
