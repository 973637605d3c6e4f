import RoomRelay.Proofs.Gateway.Prospect
import RoomRelay.Proofs.Gateway.Spellings
import RoomRelay.Proofs.Gateway.Traffic

/-!
# The hub does not depend on presence

The gateway asks the presence store now and then and goes on whatever it replies. So the presence
store may answer and fail as it pleases: sessions are registered and taken out, members come and go,
frames are sent and messages are stored as they would be with any other one.

This is said of routines first. Calls to the presence store and notes in the log are left out of a
routine; what is left must be the same for all their replies.

## Main definitions

* `Routine.ComesTo` — a routine without its calls to the presence store
* `PresenceStore`, `Routine.runWith` — a routine carried out with any presence store
* `Operation`, `performAll` — what is asked of the gateway, one after the other
* `Gateway.Akin` — gateways that are equal but for markers, typing sets and notes

## Main results

* `Routine.Indifferent.bind` — what routines come to is put together along `>>=`
* `Errand.indifferent` and its companions — every routine of the gateway comes to one without
  presence
* `Operation.perform_agree` — one operation returns the same with any two presence stores
* `presence_never_reaches_hub` — two runs with different presence stores come to the same
-/

namespace RoomRelay

variable {α β ε : Type}

/-! ### Routines without presence -/

/-- A call to the presence store, or a note. -/
def Call.IsQuiet : Call → Prop
  | presence _ | note _ => True
  | _ => False

namespace Routine

variable {r r' : Routine α}

/-- Without its quiet calls, the one routine is the other one, whatever they reply. -/
inductive ComesTo : Routine α → Routine α → Prop
  | done (a : α) : ComesTo (done a) (done a)
  | quiet {request : Call} {next : request.Reply → Routine α} {r' : Routine α}
    (quiet : request.IsQuiet) (rest : ∀ reply, ComesTo (next reply) r') :
    ComesTo (call request next) r'
  | call {request : Call} {next next' : request.Reply → Routine α} (loud : ¬ request.IsQuiet)
    (rest : ∀ reply, ComesTo (next reply) (next' reply)) :
    ComesTo (call request next) (call request next')

theorem ComesTo.bind {f f' : α → Routine β} (h : r.ComesTo r')
    (hf : ∀ a, (f a).ComesTo (f' a)) : (r >>= f).ComesTo (r' >>= f') := by
  induction h with
  | done a => exact hf a
  | quiet quiet _ ih => exact .quiet quiet ih
  | call loud _ ih => exact .call loud ih

/-- What comes to nothing but a result can be left out before `>>=`. -/
theorem ComesTo.bind_of_done {a : α} {f : α → Routine β} {rest : Routine β}
    (h : r.ComesTo (Routine.done a)) (hf : (f a).ComesTo rest) : (r >>= f).ComesTo rest := by
  generalize hr : Routine.done a = r' at h
  induction h with
  | done b =>
    obtain rfl := Routine.done.inj hr
    exact hf
  | quiet quiet _ ih => exact .quiet quiet fun reply => ih reply hr
  | call => cases hr

/-- What the routine does and ends with does not depend on the replies of quiet calls. -/
def Indifferent (r : Routine α) : Prop := ∃ r', r.ComesTo r'

theorem indifferent_done (a : α) : (done a).Indifferent := ⟨_, .done a⟩

theorem indifferent_call {request : Call} {next : request.Reply → Routine α}
    (loud : ¬ request.IsQuiet) (rest : ∀ reply, (next reply).Indifferent) :
    (call request next).Indifferent :=
  ⟨call request fun reply => (rest reply).choose, .call loud fun reply => (rest reply).choose_spec⟩

theorem Indifferent.bind {f : α → Routine β} (h : r.Indifferent) (hf : ∀ a, (f a).Indifferent) :
    (r >>= f).Indifferent := by
  obtain ⟨r', hr'⟩ := h
  exact ⟨r' >>= fun a => (hf a).choose, hr'.bind fun a => (hf a).choose_spec⟩

theorem comesTo_note (n : Note) : (note n).ComesTo (done ()) :=
  .quiet trivial fun _ => .done ()

theorem indifferent_note (n : Note) : (note n).Indifferent := ⟨_, comesTo_note n⟩

theorem indifferent_noteIf (reason : Bool) (n : Note) : (noteIf reason n).Indifferent := by
  cases reason with
  | false => exact indifferent_done ()
  | true => exact indifferent_note n

theorem indifferent_noteTimes (n : Note) (count : Nat) : (noteTimes n count).Indifferent := by
  induction count with
  | zero => exact indifferent_done ()
  | succ count ih => exact (indifferent_note n).bind fun _ => ih

end Routine

open Routine

/-! ### What the gateway does -/

/-- Whether a marker could be changed is only noted. -/
theorem indifferent_tryMark (request : PresenceCall) (failed : Note) :
    (tryMark request failed).Indifferent := by
  refine ⟨done (), .quiet trivial fun reply => ?_⟩
  cases reply with
  | ok _ => exact .done ()
  | error _ => exact comesTo_note failed

theorem indifferent_markAllOffline (userIds : List String) :
    (markAllOffline userIds).Indifferent := by
  induction userIds with
  | nil => exact indifferent_done ()
  | cons userId rest ih => exact (indifferent_tryMark _ _).bind fun _ => ih

/-- Whether the marker is set once more depends on the hub alone. -/
theorem indifferent_clearMarker (userId : String) : (clearMarker userId).Indifferent := by
  refine (indifferent_tryMark _ _).bind fun _ => indifferent_call id fun present => ?_
  cases present with
  | false => exact indifferent_done ()
  | true => exact indifferent_tryMark _ _

theorem indifferent_register (session : Session) : (register session).Indifferent := by
  rw [register_eq]
  refine indifferent_call id fun admission => ?_
  cases admission with
  | refused => exact (indifferent_note _).bind fun _ => indifferent_done _
  | admitted evicted =>
    refine (indifferent_noteIf _ _).bind fun _ => (indifferent_tryMark _ _).bind fun _ => ?_
    exact (indifferent_note _).bind fun _ => indifferent_done _

theorem indifferent_unregister (session : Session) : (unregister session).Indifferent := by
  rw [unregister_eq]
  refine indifferent_call id fun outcome => (indifferent_noteIf _ _).bind fun _ => ?_
  refine Indifferent.bind ?_ fun _ => indifferent_done _
  split
  · exact indifferent_done ()
  · exact indifferent_clearMarker _

theorem indifferent_broadcast (envelope : Envelope) : (broadcast envelope).Indifferent :=
  indifferent_call id fun _ => (indifferent_noteTimes _ _).bind fun _ => indifferent_done _

theorem indifferent_shutdown : shutdown.Indifferent :=
  indifferent_call id fun _ => (indifferent_markAllOffline _).bind fun _ =>
    (indifferent_note _).bind fun _ => indifferent_done _

theorem Errand.indifferent (errand : Errand) : errand.routine.Indifferent := by
  cases errand with
  | register session => exact indifferent_register session
  | unregister session => exact indifferent_unregister session
  | join session roomId | leave session roomId =>
    exact indifferent_call id fun _ => (indifferent_note _).bind fun _ => indifferent_done _
  | broadcast envelope => exact indifferent_broadcast envelope
  | shutdown => exact indifferent_shutdown

section Deliver

variable {told : Message → Routine α} {refused : ServiceFailure → Routine α}

theorem indifferent_announce (htold : ∀ message, (told message).Indifferent)
    (hrefused : ∀ failure, (refused failure).Indifferent) (message : Message) :
    (announce told refused message).Indifferent := by
  refine indifferent_call id fun reply => ?_
  rcases reply with failure | _
  · exact hrefused _
  · exact indifferent_call id fun _ => (indifferent_noteTimes _ _).bind fun _ => htold message

/-- To send a message the presence store is not asked at all. -/
theorem indifferent_deliver (htold : ∀ message, (told message).Indifferent)
    (hrefused : ∀ failure, (refused failure).Indifferent) (senderId : String)
    (request : SendMessage) : (deliver told refused senderId request).Indifferent := by
  unfold deliver
  split
  · exact hrefused _
  · refine indifferent_call id fun reply => ?_
    rcases reply with failure | _ | room
    · exact hrefused _
    · exact hrefused _
    · refine indifferent_call id fun reply => ?_
      rcases reply with failure | message
      · exact hrefused _
      · exact indifferent_announce htold hrefused message

end Deliver

theorem indifferent_handleSend (session : Session) (payload : SendPayload) :
    (handleSend session payload).run.Indifferent := by
  cases hroom : Uuid.parse? (Text.trim payload.roomId) with
  | none =>
    simp only [handleSend, Handler.requireUuid, hroom]
    exact indifferent_done _
  | some roomId =>
    rw [run_handleSend hroom]
    exact indifferent_deliver (fun _ => (indifferent_note _).bind fun _ => indifferent_done _)
      (fun _ => indifferent_done _) _ _

/-- The others are told that a session types whether or not the marker could be changed. -/
theorem indifferent_handleTyping (session : Session) (raw : String) (isTyping : Bool) :
    (handleTyping session raw isTyping).run.Indifferent := by
  cases hkey : roomKey raw with
  | none =>
    simp only [handleTyping, Handler.requireRoom, hkey]
    exact indifferent_done _
  | some key =>
    rw [run_handleTyping hkey]
    obtain ⟨told, htold⟩ :=
      (indifferent_broadcast (typingEnvelope session key isTyping)).bind fun _ =>
        indifferent_done (.ok () : Except CommandFailure Unit)
    have hmarked (done? : Bool) :
        (if done? then done () else note .typingMarkerFailed).ComesTo (done ()) := by
      cases done? with
      | true => exact .done ()
      | false => exact comesTo_note _
    exact ⟨told, .quiet trivial fun reply => (hmarked reply.isOk).bind_of_done htold⟩

theorem indifferent_dispatch (session : Session) (command : Command) :
    (dispatch session command).run.Indifferent := by
  cases command with
  | sendMessage payload => exact indifferent_handleSend session payload
  | typing raw isTyping => exact indifferent_handleTyping session raw isTyping
  | joinRoom raw =>
    cases hkey : roomKey raw with
    | none =>
      simp only [dispatch, Handler.requireRoom, hkey]
      exact indifferent_done _
    | some key =>
      rw [dispatch_joinRoom hkey]
      exact indifferent_call id fun _ => (indifferent_note _).bind fun _ => indifferent_done _
  | leaveRoom raw =>
    cases hkey : roomKey raw with
    | none =>
      simp only [dispatch, Handler.requireRoom, hkey]
      exact indifferent_done _
    | some key =>
      rw [dispatch_leaveRoom hkey]
      exact indifferent_call id fun _ => (indifferent_note _).bind fun _ => indifferent_done _

theorem indifferent_handleText (session : Session) (text : String) :
    (handleText session text).Indifferent := by
  unfold handleText
  refine indifferent_call id fun closed => ?_
  cases closed with
  | true => exact indifferent_done ()
  | false =>
    simp only [Routine.bind, if_neg Bool.false_ne_true]
    split
    · rename_i command _
      rw [handleCommand_eq]
      refine (indifferent_dispatch session command).bind fun result => ?_
      cases result with
      | ok _ => exact indifferent_done ()
      | error failure => exact indifferent_note _
    · exact indifferent_note _

/-! ### Any presence store -/

/-- A presence store, which may answer as it pleases and fail whenever it pleases. -/
structure PresenceStore where
  /-- What it keeps. -/
  State : Type
  /-- The reply to a call at a time in milliseconds, and what it keeps after it. -/
  answer : State → Nat → (request : PresenceCall) → Except DomainFailure request.Answer × State

/-- The presence store in memory, which never fails. -/
def PresenceStore.inMemory : PresenceStore where
  State := PresenceMemory
  answer p now request := (.ok (p.answer now request).1, (p.answer now request).2)

/-- Answers a call with a presence store of its own. -/
def PresenceStore.step (store : PresenceStore) (state : Gateway × store.State) :
    (request : Call) → request.Reply × (Gateway × store.State)
  | .presence request =>
    ((store.answer state.2 state.1.elapsed request).1,
      (state.1, (store.answer state.2 state.1.elapsed request).2))
  | request => ((state.1.step request).1, ((state.1.step request).2, state.2))

/-- Runs a routine with a presence store of its own. -/
def Routine.runWith (store : PresenceStore) (r : Routine α) : StateM (Gateway × store.State) α :=
  r.carryOut fun request state => store.step state request

namespace Gateway

variable {g g' : Gateway}

/-- The gateways are equal but for markers, typing sets and notes. -/
def Akin (g g' : Gateway) : Prop :=
  ∃ presence notes, g' = { g with presence, notes }

theorem Akin.refl (g : Gateway) : g.Akin g := ⟨g.presence, g.notes, rfl⟩

theorem Akin.symm (h : g.Akin g') : g'.Akin g := by
  obtain ⟨presence, notes, rfl⟩ := h
  exact ⟨g.presence, g.notes, rfl⟩

theorem Akin.trans {g'' : Gateway} (h : g.Akin g') (h' : g'.Akin g'') : g.Akin g'' := by
  obtain ⟨_, _, rfl⟩ := h
  obtain ⟨presence, notes, rfl⟩ := h'
  exact ⟨presence, notes, rfl⟩

theorem akin_touch (g : Gateway) (presence : PresenceMemory) (notes : List Note) (roomId : Uuid) :
    (g.touch roomId).Akin (touch { g with presence, notes } roomId) := by
  unfold touch
  cases g.rooms.get? roomId with
  | none => exact ⟨presence, notes, rfl⟩
  | some _ => exact ⟨presence, notes, rfl⟩

/-- No other call is answered differently because of markers, typing sets and notes. -/
theorem Akin.step (h : g.Akin g') {request : Call} (loud : ¬ request.IsQuiet) :
    (g'.step request).1 = (g.step request).1 ∧ (g.step request).2.Akin (g'.step request).2 := by
  obtain ⟨presence, notes, rfl⟩ := h
  cases request with
  | presence | note => exact absurd trivial loud
  | storage request =>
    cases request with
    | touch roomId => exact ⟨rfl, akin_touch g presence notes roomId⟩
    | _ => exact ⟨rfl, presence, notes, rfl⟩
  | _ => exact ⟨rfl, presence, notes, rfl⟩

end Gateway

namespace PresenceStore

variable {request : Call}

theorem akin_step_of_quiet (store : PresenceStore) (state : Gateway × store.State)
    (quiet : request.IsQuiet) :
    state.1.Akin (store.step state request).2.1 := by
  cases request with
  | presence => exact .refl _
  | note n => exact ⟨state.1.presence, n :: state.1.notes, rfl⟩
  | _ => exact quiet.elim

theorem step_of_loud (store : PresenceStore) (state : Gateway × store.State)
    (loud : ¬ request.IsQuiet) :
    store.step state request = ((state.1.step request).1, ((state.1.step request).2, state.2)) := by
  cases request with
  | presence => exact absurd trivial loud
  | _ => rfl

end PresenceStore

/-- With the presence store in memory, calls are answered as the gateway answers them. -/
theorem PresenceStore.step_inMemory (g : Gateway) (p : PresenceMemory) (request : Call) :
    Gateway.step { g with presence := p } request =
      ((inMemory.step (g, p) request).1,
        { (inMemory.step (g, p) request).2.1 with
          presence := (inMemory.step (g, p) request).2.2 }) := by
  cases request with
  | storage request =>
    cases request with
    | touch roomId =>
      simp only [step, inMemory, Gateway.step, Gateway.store, Gateway.touch]
      cases g.rooms.get? roomId <;> rfl
    | _ => rfl
  | _ => rfl

/-- A routine that is carried out with the presence store in memory runs as it does in the gateway,
whose own presence store it is. -/
theorem Routine.run_eq_runWith_inMemory (r : Routine α) (g : Gateway) (p : PresenceMemory) :
    r.run { g with presence := p } =
      ((r.runWith .inMemory (g, p)).1,
        { (r.runWith .inMemory (g, p)).2.1 with
          presence := (r.runWith .inMemory (g, p)).2.2 }) := by
  induction r generalizing g p with
  | done a => rfl
  | call request next ih =>
    rw [run_call, PresenceStore.step_inMemory]
    exact ih _ _ _

/-- With any presence store, a routine ends as the one that it comes to, and leaves the same
gateway. -/
theorem Routine.ComesTo.runWith {r r' : Routine α} (h : r.ComesTo r') (store : PresenceStore)
    {g : Gateway} {state : Gateway × store.State} (akin : g.Akin state.1) :
    (r.runWith store state).1 = (r'.run g).1 ∧ (r'.run g).2.Akin (r.runWith store state).2.1 := by
  induction h generalizing g state with
  | done a => exact ⟨rfl, akin⟩
  | quiet quiet _ ih => exact ih _ (akin.trans (store.akin_step_of_quiet _ quiet))
  | @call request next next' loud _ ih =>
    obtain ⟨hreply, hakin⟩ := akin.step loud
    have hstep := store.step_of_loud state loud
    have hrun : (Routine.call request next).runWith store state =
        (next (store.step state request).1).runWith store (store.step state request).2 := rfl
    rw [hrun, hstep, hreply, run_call]
    exact ih _ hakin

/-! ### One operation after the other -/

/-- What can be asked of the gateway, and what else happens to sessions in the meantime. -/
inductive Operation
  /-- Something is asked of the hub. -/
  | errand (errand : Errand)
  /-- A command of a session is carried out. -/
  | command (session : Session) (command : Command)
  /-- A text frame of a session is acted upon. -/
  | text (session : Session) (text : String)
  /-- A session with an open queue is made. -/
  | newSession (userId : String) (capacity : Nat)
  /-- Something happens to a queue at its other end. -/
  | handle (id : SessionId) (change : Mailbox → Mailbox)
  /-- So many milliseconds pass. -/
  | wait (milliseconds : Nat)

namespace Operation

/-- What an operation returns. -/
abbrev Result : Operation → Type
  | errand asked => asked.Result
  | command _ _ => Except CommandFailure Unit
  | newSession _ _ => Session
  | text _ _ | handle _ _ | wait _ => Unit

/-- Performs an operation with a presence store. -/
def perform (store : PresenceStore) :
    (operation : Operation) → StateM (Gateway × store.State) operation.Result
  | errand asked => asked.routine.runWith store
  | command session given => (dispatch session given).run.runWith store
  | text session written => (handleText session written).runWith store
  | newSession userId capacity => fun (g, kept) =>
    ((g.newSession userId capacity).1, ((g.newSession userId capacity).2, kept))
  | handle id change => fun (g, kept) =>
    ((), ({ g with hub := g.hub.setMailbox id (change (g.hub.mailbox id)) }, kept))
  | wait milliseconds => fun (g, kept) =>
    ((), ({ g with elapsed := g.elapsed + milliseconds }, kept))

end Operation

/-- Performs operations one after the other, and lists what they return. -/
def performAll (store : PresenceStore) : List Operation → Gateway × store.State →
    List (Σ op : Operation, op.Result) × (Gateway × store.State)
  | [], state => ([], state)
  | op :: ops, state =>
    (⟨op, (op.perform store state).1⟩ :: (performAll store ops (op.perform store state).2).1,
      (performAll store ops (op.perform store state).2).2)

variable {one other : PresenceStore}

theorem Routine.Indifferent.runWith {r : Routine α} (h : r.Indifferent)
    {s : Gateway × one.State} {t : Gateway × other.State} (akin : s.1.Akin t.1) :
    (r.runWith one s).1 = (r.runWith other t).1 ∧
      (r.runWith one s).2.1.Akin (r.runWith other t).2.1 := by
  obtain ⟨r', hr'⟩ := h
  obtain ⟨hone, hakin⟩ := hr'.runWith one (.refl s.1)
  obtain ⟨hother, hakin'⟩ := hr'.runWith other akin
  exact ⟨hone.trans hother.symm, hakin.symm.trans hakin'⟩

/-- One operation returns the same with any two presence stores. -/
theorem Operation.perform_agree (op : Operation) {s : Gateway × one.State}
    {t : Gateway × other.State} (akin : s.1.Akin t.1) :
    (op.perform one s).1 = (op.perform other t).1 ∧
      (op.perform one s).2.1.Akin (op.perform other t).2.1 := by
  cases op with
  | errand asked => exact asked.indifferent.runWith akin
  | command session given => exact (indifferent_dispatch session given).runWith akin
  | text session written => exact (indifferent_handleText session written).runWith akin
  | newSession | handle | wait =>
    obtain ⟨g, kept⟩ := s
    obtain ⟨g', kept'⟩ := t
    obtain ⟨presence, notes, rfl⟩ := akin
    exact ⟨rfl, presence, notes, rfl⟩

theorem performAll_agree (ops : List Operation) {s : Gateway × one.State}
    {t : Gateway × other.State} (akin : s.1.Akin t.1) :
    (performAll one ops s).1 = (performAll other ops t).1 ∧
      (performAll one ops s).2.1.Akin (performAll other ops t).2.1 := by
  induction ops generalizing s t with
  | nil => exact ⟨rfl, akin⟩
  | cons op ops ih =>
    obtain ⟨hresult, hakin⟩ := op.perform_agree akin
    obtain ⟨hresults, hlast⟩ := ih hakin
    exact ⟨by rw [performAll, performAll, hresult, hresults], hlast⟩

/-- **Presence never reaches the hub.** Perform the same operations on the same gateway with any two
presence stores, which may answer and fail as they please. All operations return the same, and the
two runs leave the same registry, the same queues, the same messages and rooms, and the same supply
of identifiers and clock readings. -/
theorem presence_never_reaches_hub (ops : List Operation) (g : Gateway) (one other : PresenceStore)
    (kept : one.State) (kept' : other.State) :
    (performAll one ops (g, kept)).1 = (performAll other ops (g, kept')).1 ∧
      (performAll one ops (g, kept)).2.1.hub.registry =
        (performAll other ops (g, kept')).2.1.hub.registry ∧
      (performAll one ops (g, kept)).2.1.hub.mailboxes =
        (performAll other ops (g, kept')).2.1.hub.mailboxes ∧
      (performAll one ops (g, kept)).2.1.messages = (performAll other ops (g, kept')).2.1.messages ∧
      (performAll one ops (g, kept)).2.1.rooms = (performAll other ops (g, kept')).2.1.rooms ∧
      (performAll one ops (g, kept)).2.1.supply = (performAll other ops (g, kept')).2.1.supply := by
  obtain ⟨hresults, presence, notes, hlast⟩ :=
    performAll_agree ops (s := (g, kept)) (t := (g, kept')) (.refl g)
  rw [hlast]
  exact ⟨hresults, rfl, rfl, rfl, rfl, rfl⟩

end RoomRelay
