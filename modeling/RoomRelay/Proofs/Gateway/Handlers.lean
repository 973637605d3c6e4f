import RoomRelay.Gateway.Dispatch
import RoomRelay.Proofs.Gateway.Opening

/-!
# What commands may do to sessions

A client can make its session join rooms, leave them and send frames, but no command registers a
session or takes one out. Whatever is left of a text that is being acted upon, it will not do so
either.

## Main definitions

* `Call.subject?` — the session that a call is to register or to take out
* `Routine.Impersonal`, `Routine.ImpersonalRun` — a routine that is not about to do either

## Main results

* `impersonal_handleText` — acting upon a text
-/

namespace RoomRelay

open Routine

/-- The session that a call is to register or to take out. -/
def Call.subject? : Call → Option SessionId
  | enroll session | withdraw session => some session.id
  | _ => none

theorem Call.subject?_eq_none {request : Call} (h : request.act? = none) :
    request.subject? = none := by
  cases request with
  | enroll | withdraw => exact absurd h (by simp [act?])
  | _ => rfl

namespace Routine

variable {α β ε : Type}

/-- The routine neither registers a session nor takes one out. -/
abbrev Impersonal (r : Routine α) : Prop := r.Within (·.subject? = none) fun _ => True

theorem SparesHub.impersonal {r : Routine α} (h : r.SparesHub) : r.Impersonal :=
  h.mono (fun _ hc => Call.subject?_eq_none hc) fun _ => id

/-- A routine that may fail neither registers a session nor takes one out. -/
structure ImpersonalRun (r : ExceptT ε Routine α) : Prop where
  within : r.run.Impersonal

/-- A routine that may fail ends where it fails. -/
theorem ImpersonalRun.bind {r : ExceptT ε Routine α} {f : α → ExceptT ε Routine β}
    (hr : ImpersonalRun r) (hf : ∀ a, ImpersonalRun (f a)) : ImpersonalRun (r >>= f) := by
  constructor
  rw [ExceptT.run_bind]
  refine Within.bind hr.within fun result _ => ?_
  cases result with
  | ok a => exact (hf a).within
  | error _ => exact trivial

theorem impersonalRun_pure (a : α) : ImpersonalRun (pure a : ExceptT ε Routine α) := ⟨trivial⟩

theorem impersonalRun_throw (e : ε) : ImpersonalRun (throw e : ExceptT ε Routine α) := ⟨trivial⟩

theorem ImpersonalRun.discard {r : ExceptT ε Routine α} (h : ImpersonalRun r) :
    ImpersonalRun (Functor.discard r) :=
  ⟨Within.bind h.within fun result _ => by cases result <;> exact trivial⟩

end Routine

/-! ### Services -/

theorem impersonal_store (call : StoreCall) : ImpersonalRun (Service.store call) :=
  ⟨rfl, fun _ => trivial⟩

theorem impersonal_presence (call : PresenceCall) : ImpersonalRun (Service.presence call) :=
  ⟨rfl, fun _ => trivial⟩

theorem impersonal_check (limits : Except LengthFault Unit) :
    ImpersonalRun (Service.check limits) := by
  cases limits with
  | ok _ => exact impersonalRun_pure ()
  | error _ => exact impersonalRun_throw _

theorem impersonal_sendMessage (senderId : String) (request : SendMessage) :
    ImpersonalRun (sendMessage senderId request) := by
  unfold sendMessage
  refine (impersonal_check _).bind fun _ => ?_
  split
  · -- Nothing follows a failure.
    exact ⟨trivial⟩
  · refine (impersonal_store _).bind fun room? => ?_
    cases room? with
    | none => exact impersonalRun_throw _
    | some _ =>
      refine (impersonal_store _).bind fun message => ?_
      exact (impersonal_store _).bind fun _ => impersonalRun_pure _

theorem impersonal_setTyping (roomId userId : String) (isTyping : Bool) :
    ImpersonalRun (setTyping roomId userId isTyping) := by
  cases isTyping with
  | true => exact impersonal_presence _
  | false => exact impersonal_presence _

/-! ### Commands -/

namespace Handler

theorem impersonal_perform {α : Type} {r : Routine α} (h : r.Impersonal) :
    ImpersonalRun (perform r) :=
  ⟨Within.bind h fun _ _ => trivial⟩

theorem impersonal_serve {α : Type} {service : Service α} (h : ImpersonalRun service) :
    ImpersonalRun (serve service) :=
  ⟨Within.bind h.within fun _ _ => trivial⟩

theorem impersonal_requireRoom (raw : String) : ImpersonalRun (requireRoom raw) := by
  unfold requireRoom
  split
  · exact impersonalRun_pure _
  · exact impersonalRun_throw _

theorem impersonal_requireUuid (raw : String) : ImpersonalRun (requireUuid raw) := by
  unfold requireUuid
  split
  · exact impersonalRun_pure _
  · exact impersonalRun_throw _

end Handler

open Handler

theorem impersonal_note (n : Note) : (note n).Impersonal := (sparesHub_note n).impersonal

theorem impersonal_joinRoom (session : Session) (roomId : String) :
    (joinRoom session roomId).Impersonal := ⟨rfl, fun _ => ⟨rfl, fun _ => trivial⟩⟩

theorem impersonal_leaveRoom (session : Session) (roomId : String) :
    (leaveRoom session roomId).Impersonal := ⟨rfl, fun _ => ⟨rfl, fun _ => trivial⟩⟩

theorem impersonal_broadcast (envelope : Envelope) : (broadcast envelope).Impersonal :=
  ⟨rfl, fun _ => (sparesHub_noteTimes _ _).impersonal.bind fun _ _ => trivial⟩

theorem impersonal_handleSend (session : Session) (payload : SendPayload) :
    ImpersonalRun (handleSend session payload) := by
  unfold handleSend
  refine (impersonal_requireUuid _).bind fun roomId => ?_
  refine (impersonal_serve (impersonal_sendMessage _ _)).bind fun message => ?_
  refine (impersonal_perform (impersonal_broadcast _)).discard.bind fun _ => ?_
  exact impersonal_perform (impersonal_note _)

theorem impersonal_handleTyping (session : Session) (raw : String) (isTyping : Bool) :
    ImpersonalRun (handleTyping session raw isTyping) := by
  have htell : ∀ envelope, ImpersonalRun
      (Functor.discard (perform (broadcast envelope)) : Handler Unit) := fun envelope =>
    (impersonal_perform (impersonal_broadcast envelope)).discard
  unfold handleTyping
  refine (impersonal_requireRoom _).bind fun roomId => ?_
  have hset : ImpersonalRun (perform (setTyping roomId session.userId isTyping).run) :=
    impersonal_perform (impersonal_setTyping _ _ _).within
  -- The others are told whether or not the marker could be set.
  refine hset.bind fun result => ?_
  cases result with
  | ok _ => exact htell _
  | error _ => exact (impersonal_perform (impersonal_note _)).bind fun _ => htell _

theorem impersonal_dispatch (session : Session) (command : Command) :
    ImpersonalRun (dispatch session command) := by
  cases command with
  | joinRoom raw =>
    refine (impersonal_requireRoom raw).bind fun roomId => ?_
    exact (impersonal_perform (impersonal_joinRoom session roomId)).discard
  | leaveRoom raw =>
    refine (impersonal_requireRoom raw).bind fun roomId => ?_
    exact (impersonal_perform (impersonal_leaveRoom session roomId)).discard
  | sendMessage payload => exact impersonal_handleSend session payload
  | typing raw isTyping => exact impersonal_handleTyping session raw isTyping

/-- Whatever a client sends, acting upon it neither registers a session nor takes one out. -/
theorem impersonal_handleText (session : Session) (text : String) :
    (handleText session text).Impersonal := by
  have hask : (ask (.isClosed session.id)).Impersonal := ⟨rfl, fun _ => trivial⟩
  unfold handleText
  refine Within.bind hask fun closed _ => ?_
  split
  · exact trivial
  · split
    · refine Within.bind (impersonal_dispatch session _).within fun result _ => ?_
      cases result with
      | ok _ => exact trivial
      | error _ => exact impersonal_note _
    · exact impersonal_note _

end RoomRelay
