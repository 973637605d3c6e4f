import RoomRelay.Proofs.Gateway.Sending
import RoomRelay.Proofs.Service.History

/-!
# Sends that fail

The stores may fail at any of their calls, and sending a message takes three of them: the room is
looked up, the message is kept, and the room is noted to be active. A send that fails at one of the
first two has kept nothing. One that fails at the third has kept its message all the same; the room
is not told of it, and whoever sends it again has it kept twice.

## Main definitions

* `Depot` — stores of rooms and messages that answer and fail as they please
* `Routine.runAt` — a routine carried out with such stores
* `Depot.Gains` — one message more is kept
* `Depot.BreaksOff` — a message is kept, and then its room cannot be noted to be active
* `Hub.informed` — the hub after a room has been told of a message that was accepted

## Main results

* `Depot.send_cases` — how a send ends
* `Depot.unkept_of_failure` — a send that fails keeps nothing, unless it breaks off
* `Depot.kept_by_failed_send` — a send that breaks off
-/

namespace RoomRelay

open Routine (done)

variable {α β : Type}

variable {senderId : String} {request : SendMessage}

/-- A request that is refused asks nothing of the stores. -/
theorem sendMessage_of_refused {failure : ServiceFailure} (h : request.refusal? = some failure) :
    (sendMessage senderId request).run = done (.error failure) := by
  unfold SendMessage.refusal? at h
  unfold sendMessage Service.check
  cases hcheck : request.check with
  | error fault =>
    rw [hcheck] at h
    rw [← Option.some_inj.mp h]
    rfl
  | ok _ =>
    simp only [hcheck] at h
    split at h
    · rename_i hblank
      rw [← Option.some_inj.mp h]
      simp only [SendMessage.draft, MessageDraft.isEmpty, hblank]
      rfl
    · exact absurd h (by simp)

/-- A request that is not refused looks its room up, has the message kept, and then has it noted
that the room is active. -/
theorem sendMessage_of_unrefused (h : request.refusal? = none) :
    sendMessage senderId request = Service.store (.findRoom request.roomId) >>= fun
      | none => Service.fail (.domain (.unknownRoom request.roomId))
      | some _ => Service.store (.createMessage (request.draft senderId)) >>= fun message =>
        Service.store (.touch message.roomId) >>= fun _ => pure message := by
  unfold SendMessage.refusal? at h
  unfold sendMessage Service.check
  cases hcheck : request.check with
  | error fault =>
    rw [hcheck] at h
    exact absurd h (by simp)
  | ok _ =>
    simp only [hcheck] at h
    split at h
    · exact absurd h (by simp)
    · rename_i hblank
      simp only [SendMessage.draft, MessageDraft.isEmpty, hblank]
      rfl

/-! ### Stores that may fail -/

/-- Stores of rooms and messages, which may answer as they please and fail whenever they please. A
message is kept if the call to keep it is answered, and nothing else changes what is kept. -/
structure Depot where
  /-- What is in the stores. -/
  State : Type
  /-- The reply to a call, and what is in the stores after it. -/
  answer : State → (call : StoreCall) → Except DomainFailure call.Answer × State
  /-- The messages of each room. -/
  history : State → Uuid → List Message
  /-- A message that is kept belongs to its room from then on. -/
  history_created : ∀ {s s' draft message}, answer s (.createMessage draft) = (.ok message, s') →
    ∀ roomId, (history s' roomId).Perm
      (history s roomId ++ if message.roomId = roomId then [message] else [])
  /-- If a message cannot be kept, all messages are as before. -/
  history_failed : ∀ {s s' draft reason},
    answer s (.createMessage draft) = (.error reason, s') → history s' = history s
  /-- No other call changes any message. -/
  history_other : ∀ {s call}, (∀ draft, call ≠ .createMessage draft) →
    history (answer s call).2 = history s

/-- Answers a call with stores of their own. -/
def Depot.step (depot : Depot) (state : Gateway × depot.State) :
    (request : Call) → request.Reply × (Gateway × depot.State)
  | .storage call =>
    ((depot.answer state.2 call).1, (state.1, (depot.answer state.2 call).2))
  | request => ((state.1.step request).1, ((state.1.step request).2, state.2))

/-- Runs a routine with stores of their own. -/
def Routine.runAt (depot : Depot) (r : Routine α) : StateM (Gateway × depot.State) α :=
  r.carryOut fun request state => depot.step state request

/-- The hub after the room of a message has been told of it, if the send was accepted. -/
def Hub.informed (hub : Hub) : Except ServiceFailure Message → Hub
  | .ok message => (hub.broadcast (messageEnvelope message)).2
  | .error _ => hub

namespace Depot

variable (depot : Depot) {g : Gateway} {s s' : depot.State} {message : Message}
variable {reason : DomainFailure}

theorem runAt_bind (r : Routine α) (f : α → Routine β) (state : Gateway × depot.State) :
    (r >>= f).runAt depot state =
      (f (r.runAt depot state).1).runAt depot (r.runAt depot state).2 := by
  have hbind : (r >>= f).runAt depot = r.runAt depot >>= fun a => (f a).runAt depot :=
    Routine.carryOut_bind _ r f
  exact congrFun hbind state

/-- A service asks the stores and goes on with the answer, or ends if they fail. -/
theorem runAt_store_bind (call : StoreCall) (f : call.Answer → Service α) (g : Gateway)
    (s : depot.State) :
    (Service.store call >>= f).run.runAt depot (g, s) =
      match depot.answer s call with
      | (.ok answer, s') => (f answer).run.runAt depot (g, s')
      | (.error reason, s') => (.error (.domain reason), (g, s')) := by
  have hask : (Service.store call >>= f).run = .call (.storage call) fun
      | .ok answer => (f answer).run
      | .error reason => .done (.error (.domain reason)) := by
    refine congrArg (Routine.call _) (funext fun reply => ?_)
    cases reply <;> rfl
  have hcall : (Service.store call >>= f).run.runAt depot (g, s) =
      (match (depot.answer s call).1 with
        | .ok answer => (f answer).run
        | .error reason => Routine.done (.error (.domain reason))).runAt depot
          (g, (depot.answer s call).2) := by
    rw [hask]
    rfl
  rw [hcall]
  cases depot.answer s call with
  | mk reply s' => cases reply <;> rfl

/-- One message more is kept, and none less. -/
def Gains (s : depot.State) (message : Message) (s' : depot.State) : Prop :=
  ∀ roomId, (depot.history s' roomId).Perm
    (depot.history s roomId ++ if message.roomId = roomId then [message] else [])

/-- The request is not refused, its room is found and the message is kept; but then it cannot be
noted that the room is active. -/
inductive BreaksOff (s : depot.State) (senderId : String) (request : SendMessage) :
    Message → DomainFailure → Prop
  | intro {s₁ s₂ s₃ : depot.State} {room : Room} {message : Message} {reason : DomainFailure}
    (accepted : request.refusal? = none)
    (found : depot.answer s (.findRoom request.roomId) = (.ok (some room), s₁))
    (kept : depot.answer s₁ (.createMessage (request.draft senderId)) = (.ok message, s₂))
    (untouched : depot.answer s₂ (.touch message.roomId) = (.error reason, s₃)) :
    BreaksOff s senderId request message reason

/-- Whoever gains a message does not have the same messages as before. -/
theorem Gains.history_ne (h : depot.Gains s message s') : depot.history s' ≠ depot.history s := by
  intro heq
  have hlength := (h message.roomId).length_eq
  rw [heq, if_pos rfl, List.length_append] at hlength
  exact absurd hlength (by simp)

/-- A send that breaks off fails with what the stores said, and its message is kept. -/
theorem BreaksOff.runAt_sendMessage (h : depot.BreaksOff s senderId request message reason)
    (g : Gateway) :
    ∃ s', (sendMessage senderId request).run.runAt depot (g, s) =
      (.error (.domain reason), (g, s')) ∧ depot.Gains s message s' := by
  obtain @⟨s₁, s₂, s₃, room, message, reason, haccepted, hfound, hkept, htouched⟩ := h
  refine ⟨s₃, ?_, ?_⟩
  · rw [sendMessage_of_unrefused haccepted, runAt_store_bind, hfound]
    dsimp only
    rw [runAt_store_bind, hkept]
    dsimp only
    rw [runAt_store_bind, htouched]
  · -- Of the three calls only the second one changes any message.
    have hfind : depot.history s₁ = depot.history s := by
      have hsame : depot.history (depot.answer s (.findRoom request.roomId)).2 = _ :=
        depot.history_other nofun
      rwa [hfound] at hsame
    have htouch : depot.history s₃ = depot.history s₂ := by
      have hsame : depot.history (depot.answer s₂ (.touch message.roomId)).2 = _ :=
        depot.history_other nofun
      rwa [htouched] at hsame
    intro roomId
    rw [htouch, ← hfind]
    exact depot.history_created hkept roomId

/-- How a send ends: it is accepted and its message is kept; or it fails and nothing is kept; or it
breaks off. -/
theorem send_cases (g : Gateway) (s : depot.State) (senderId : String) (request : SendMessage) :
    ∃ sent s', (sendMessage senderId request).run.runAt depot (g, s) = (sent, (g, s')) ∧
      ((∃ message, sent = .ok message ∧ depot.Gains s message s') ∨
        (∃ failure, sent = .error failure ∧ depot.history s' = depot.history s) ∨
        ∃ message reason, depot.BreaksOff s senderId request message reason) := by
  cases hrefusal : request.refusal? with
  | some failure =>
    rw [sendMessage_of_refused hrefusal]
    exact ⟨_, s, rfl, Or.inr (Or.inl ⟨failure, rfl, rfl⟩)⟩
  | none =>
    rw [sendMessage_of_unrefused hrefusal, runAt_store_bind]
    have hfind : depot.history (depot.answer s (.findRoom request.roomId)).2 = depot.history s :=
      depot.history_other nofun
    rcases hfound : depot.answer s (.findRoom request.roomId) with ⟨reason | _ | room, s₁⟩
    · rw [hfound] at hfind
      exact ⟨_, s₁, rfl, Or.inr (Or.inl ⟨_, rfl, hfind⟩)⟩
    · rw [hfound] at hfind
      exact ⟨_, s₁, rfl, Or.inr (Or.inl ⟨_, rfl, hfind⟩)⟩
    · rw [hfound] at hfind
      dsimp only
      rw [runAt_store_bind]
      rcases hkept : depot.answer s₁ (.createMessage (request.draft senderId)) with
        ⟨reason | message, s₂⟩
      · exact ⟨_, s₂, rfl, Or.inr (Or.inl ⟨_, rfl, (depot.history_failed hkept).trans hfind⟩)⟩
      · dsimp only
        rw [runAt_store_bind]
        -- The message is kept by now, whatever comes of the last call.
        have htouch : depot.history (depot.answer s₂ (.touch message.roomId)).2 =
            depot.history s₂ := depot.history_other nofun
        rcases htouched : depot.answer s₂ (.touch message.roomId) with ⟨reason | _, s₃⟩
        · exact ⟨_, s₃, rfl,
            Or.inr (Or.inr ⟨message, reason, .intro hrefusal hfound hkept htouched⟩)⟩
        · rw [htouched] at htouch
          refine ⟨_, s₃, rfl, Or.inl ⟨message, rfl, fun roomId => ?_⟩⟩
          rw [htouch, ← hfind]
          exact depot.history_created hkept roomId

/-! ### Telling the room -/

theorem runAt_noteTimes (n : Note) (count : Nat) (g : Gateway) (s : depot.State) :
    ((noteTimes n count).runAt depot (g, s)).2.1.hub = g.hub ∧
      ((noteTimes n count).runAt depot (g, s)).2.2 = s := by
  induction count generalizing g with
  | zero => exact ⟨rfl, rfl⟩
  | succ count ih => exact ih { g with notes := n :: g.notes }

theorem runAt_broadcast (envelope : Envelope) (g : Gateway) (s : depot.State) :
    ((broadcast envelope).runAt depot (g, s)).2.1.hub = (g.hub.broadcast envelope).2 ∧
      ((broadcast envelope).runAt depot (g, s)).2.2 = s := by
  have hnoted := depot.runAt_noteTimes .queueOverflow (g.hub.broadcast envelope).1.overflowed
    { g with hub := (g.hub.broadcast envelope).2 } s
  unfold broadcast
  rw [runAt_bind, runAt_bind]
  exact hnoted

theorem runAt_told (message : Message) (g : Gateway) (s : depot.State) :
    (Handler.told message).runAt depot (g, s) =
      (.ok (), ({ g with notes := .messageBroadcast :: g.notes }, s)) := rfl

/-- A command to send a message has the room told if the send is accepted, and does nothing else to
the hub and to the stores. -/
theorem runAt_handleSend {raw : String} {g' : Gateway} {sent : Except ServiceFailure Message}
    (id : SessionId) (h : Uuid.parse? (Text.trim raw) = some request.roomId)
    (hsent : (sendMessage senderId request).run.runAt depot (g, s) = (sent, (g', s'))) :
    ∃ reply after, (handleSend ⟨id, senderId⟩
        ⟨raw, request.content, request.kind, request.metadata⟩).run.runAt depot (g, s) =
      (reply, (after, s')) ∧
      after.hub = g'.hub.informed sent := by
  have hdeliver : (handleSend ⟨id, senderId⟩
      ⟨raw, request.content, request.kind, request.metadata⟩).run =
        deliver Handler.told Handler.refused senderId request :=
    @run_handleSend ⟨id, senderId⟩ ⟨raw, request.content, request.kind, request.metadata⟩ _ h
  rw [hdeliver, ← sendMessage_bind, runAt_bind, hsent]
  cases sent with
  | error failure => exact ⟨_, _, rfl, rfl⟩
  | ok message =>
    dsimp only
    rw [runAt_bind]
    obtain ⟨hhub, hsame⟩ := depot.runAt_broadcast (messageEnvelope message) g' s'
    generalize (broadcast (messageEnvelope message)).runAt depot (g', s') = outcome at hhub hsame
    obtain ⟨report, after, left⟩ := outcome
    obtain rfl : left = s' := hsame
    exact ⟨_, _, depot.runAt_told message after left, hhub⟩

/-! ### Sends that break off -/

/-- **Failed sends.** Send a message with any stores of rooms and messages, which may fail at any
call. If the send is accepted, its message is kept and no other one. If it fails, all messages are
as before, unless it breaks off: then the message is kept, the room cannot be noted to be active,
and this is why the send fails. A command to send the message keeps the same, and has the room told
if the send is accepted. So, unless the send breaks off, the room is told of the message or nothing
is kept; and if it breaks off, the message is kept and the room is not told. -/
theorem unkept_of_failure (g : Gateway) (s : depot.State) (senderId : String)
    (request : SendMessage) :
    let sent := (sendMessage senderId request).run.runAt depot (g, s)
    let breaksOff := ∃ message reason, depot.BreaksOff s senderId request message reason
    (∀ message, sent.1 = .ok message → depot.Gains s message sent.2.2) ∧
    (∀ failure, sent.1 = .error failure →
      (depot.history sent.2.2 = depot.history s ↔ ¬ breaksOff)) ∧
    (∀ message reason, depot.BreaksOff s senderId request message reason →
      sent.1 = .error (.domain reason) ∧ depot.Gains s message sent.2.2) ∧
    ∀ id raw, Uuid.parse? (Text.trim raw) = some request.roomId →
      let handled := (handleSend ⟨id, senderId⟩
        ⟨raw, request.content, request.kind, request.metadata⟩).run.runAt depot (g, s)
      handled.2.2 = sent.2.2 ∧ handled.2.1.hub = g.hub.informed sent.1 := by
  intro sent breaksOff
  -- A send is accepted, fails before its message is stored, or breaks off behind that.
  obtain ⟨reply, s', hsent, hends⟩ := depot.send_cases g s senderId request
  have hbreaks : ∀ message reason, depot.BreaksOff s senderId request message reason →
      sent.1 = .error (.domain reason) ∧ depot.Gains s message sent.2.2 := by
    intro message reason h
    obtain ⟨s'', hrun, hgains⟩ := h.runAt_sendMessage depot g
    rw [show sent = _ from hrun]
    exact ⟨rfl, hgains⟩
  refine ⟨?_, ?_, hbreaks, ?_⟩
  · intro message hmessage
    rcases hends with ⟨message', rfl, hgains⟩ | ⟨failure, rfl, -⟩ | ⟨message', reason, hoff⟩
    · rw [show sent = _ from hsent] at hmessage ⊢
      rwa [← Except.ok.inj hmessage]
    · rw [show sent = _ from hsent] at hmessage
      exact absurd hmessage (by simp)
    · exact absurd ((hbreaks _ _ hoff).1.symm.trans hmessage) (by simp)
  · intro failure hfailure
    rcases hends with ⟨message, rfl, -⟩ | ⟨failure', rfl, hsame⟩ | ⟨message, reason, hoff⟩
    · rw [show sent = _ from hsent] at hfailure
      exact absurd hfailure (by simp)
    · have hsame' : depot.history sent.2.2 = depot.history s := by
        rw [show sent = _ from hsent]
        exact hsame
      refine iff_of_true hsame' ?_
      rintro ⟨message, reason, hoff⟩
      exact (hbreaks _ _ hoff).2.history_ne depot hsame'
    · exact iff_of_false ((hbreaks _ _ hoff).2.history_ne depot) fun h => h ⟨message, reason, hoff⟩
  · intro id raw hraw
    obtain ⟨answer, after, hhandled, hhub⟩ := depot.runAt_handleSend id hraw hsent
    rw [hhandled, show sent = _ from hsent]
    exact ⟨rfl, hhub⟩

/-- The stores in memory, some calls to which fail. -/
def inMemory (fault? : StoreCall → Option DomainFailure) : Depot where
  State := Gateway
  answer g call :=
    match fault? call with
    | some reason => (.error reason, g)
    | none => (.ok (g.store call).1, (g.store call).2)
  history g := g.messages.history
  history_created := by
    intro g g' draft message h roomId
    split at h
    · exact absurd (Prod.mk.inj h).1 (by simp)
    · obtain ⟨hmessage, rfl⟩ := Prod.mk.inj h
      obtain rfl := Except.ok.inj hmessage
      rw [Gateway.store]
      exact .of_eq MessageStore.history_append
  history_failed := by
    intro g g' draft reason h
    split at h
    · rw [(Prod.mk.inj h).2]
    · exact absurd (Prod.mk.inj h).1 (by simp)
  history_other := by
    intro g call hcall
    split
    · rfl
    · cases call with
      | createMessage draft => exact absurd rfl (hcall draft)
      | touch roomId => exact congrArg _ Gateway.messages_touch
      | _ => rfl

/-- No room can be noted to be active. -/
def untouchable : StoreCall → Option DomainFailure
  | .touch _ => some (.database "down")
  | _ => none

/-- A message for the lounge is kept, and its room cannot be noted to be active. -/
theorem breaksOff_untouchable :
    ∃ message, (inMemory untouchable).BreaksOff lounge "alice" ⟨.version4 7, "hi", .text, none⟩
      message (.database "down") :=
  ⟨_, .intro (by decide +kernel) rfl rfl rfl⟩

/-- The send fails, and its message is kept. -/
theorem unkept_of_failure_of_untouchable :
    let depot := inMemory untouchable
    let request : SendMessage := ⟨.version4 7, "hi", .text, none⟩
    let sent := (sendMessage "alice" request).run.runAt depot (lounge, lounge)
    ∃ message, depot.BreaksOff lounge "alice" request message (.database "down") ∧
      sent.1 = .error (.domain (.database "down")) ∧ depot.Gains lounge message sent.2.2 ∧
      depot.history sent.2.2 ≠ depot.history lounge := by
  intro depot request sent
  obtain ⟨message, hbreaks⟩ := breaksOff_untouchable
  obtain ⟨-, hunkept, hkept, -⟩ := unkept_of_failure depot lounge lounge "alice" request
  obtain ⟨hfails, hgains⟩ := hkept _ _ hbreaks
  refine ⟨message, hbreaks, hfails, hgains, fun hsame => ?_⟩
  exact (hunkept _ hfails).mp hsame ⟨message, _, hbreaks⟩

/-- A send that has failed has its message kept, and whoever sends it again has it kept twice. -/
theorem kept_by_failed_send :
    let request : SendMessage := ⟨.version4 7, "hi", .text, none⟩
    let sent := (sendMessage "alice" request).run.runAt (inMemory untouchable) (lounge, lounge)
    let again := (sendMessage "alice" request).run.runAt (inMemory fun _ => none) sent.2
    sent.1 = .error (.domain (.database "down")) ∧
      lounge.messages.history (.version4 7) = [] ∧
      (sent.2.2.messages.history (.version4 7)).map (·.content) = ["hi"] ∧
      (again.2.2.messages.history (.version4 7)).map (·.content) = ["hi", "hi"] := by
  decide +kernel

end Depot

end RoomRelay
