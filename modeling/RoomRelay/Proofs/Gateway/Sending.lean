import RoomRelay.Http.App
import RoomRelay.Proofs.Gateway.Execution
import RoomRelay.Proofs.Http.Bodies

/-!
# Two ways to send a message

A message can be sent as a command over a socket and as a request to the endpoint. The two decode
it through records of their own, the endpoint looks at the limits once more, and failures are told
in different ways. Still they come to the same: they accept and refuse alike, leave the same gateway
behind but for the log, and what the room is told agrees with what the endpoint answers.

## Main definitions

* `SendMessage.FramedBy`, `SendMessage.PostedBy` — the texts and the requests that ask for a message
* `App.Vouches` — a request carries a valid token of an identity
* `Handler.told`, `Handler.refused`, `Endpoint.told`, `Endpoint.refused` — how the two go on

## Main results

* `run_handleSend`, `App.run_sendMessage` — both ways come down to `deliver`
* `sends_agree` — both ways come to the same
-/

namespace RoomRelay

open Routine

variable {g : Gateway} {session : Session} {request : SendMessage}

/-! ### What asks for a message -/

/-- A text that asks for a message: it spells the command to send it, with any spelling of the room
and blanks around that. -/
def SendMessage.FramedBy (request : SendMessage) (text : String) : Prop :=
  ∃ raw tree, Uuid.parse? (Text.trim raw) = some request.roomId ∧
    Command.IsFrameOf Command.denoted
      (.sendMessage ⟨raw, request.content, request.kind, request.metadata⟩) tree ∧
    tree.depth ≤ Json.depthLimit ∧ Json.IsText text tree

/-- A request that asks for a message: it adds to the messages, says that its body is JSON, and its
body spells what is asked for within the limits. -/
structure SendMessage.PostedBy (request : SendMessage) (r : HttpRequest) : Prop where
  action : App.action? r = some .sendMessage
  json : r.sendsJson = true
  fits : r.body.length ≤ maxBodyLength
  spelt : ∃ text tree, r.body = Utf8.bytes text ∧ Json.IsText text tree ∧
    tree.depth ≤ Json.depthLimit ∧ request.IsBody tree

/-- A request carries a token that vouches for an identity at the time the clock shows. -/
def App.Vouches (app : App) (g : Gateway) (r : HttpRequest) (userId : String) : Prop :=
  ∃ token, r.bearer? = some token ∧ app.tokens.verify token g.supply.now.seconds = .ok userId

/-! ### Over a socket -/

/-- How a handler goes on when a message has been sent. -/
def Handler.told (_ : Message) : Routine (Except CommandFailure Unit) :=
  note .messageBroadcast >>= fun _ => done (.ok ())

/-- How a handler goes on when a request to send a message is refused. -/
def Handler.refused (failure : ServiceFailure) : Routine (Except CommandFailure Unit) :=
  done (.error (.service failure))

theorem run_handleSend {payload : SendPayload} {roomId : Uuid}
    (h : Uuid.parse? (Text.trim payload.roomId) = some roomId) :
    (handleSend session payload).run =
      deliver Handler.told Handler.refused session.userId
        ⟨roomId, payload.content, payload.kind, payload.metadata⟩ := by
  rw [← sendMessage_bind]
  unfold handleSend Handler.requireUuid
  rw [h, pure_bind]
  refine (Routine.bind_assoc _ _ _).trans (congrArg (_ >>= ·) (funext fun result => ?_))
  rcases result with failure | message
  · rfl
  · refine (run_discard_lift_bind (broadcast (messageEnvelope message)) _).trans ?_
    exact congrArg (_ >>= ·) (funext fun _ => run_lift _)

/-! ### Through the endpoint -/

/-- How the endpoint goes on when a message has been sent. -/
def Endpoint.told (message : Message) : Routine (Except Rejection HttpResponse) :=
  done (.ok (.json 201 message.response))

/-- How the endpoint goes on when a request to send a message is refused. -/
def Endpoint.refused (failure : ServiceFailure) : Routine (Except Rejection HttpResponse) :=
  done (.error (.failure (.service failure)))

/-- The request that the body of a request spells, within its limits. -/
def SendMessage.ofBody (r : HttpRequest) : Except Rejection SendMessage :=
  match readBody (SendMessage.record.read Json.depthLimit) r with
  | .error fault => .error (.failure (.body fault.message))
  | .ok request =>
    match request.check with
    | .error fault => .error (.failure (.limits fault))
    | .ok () => .ok request

/-- What a token proves at a time. -/
def TokenConfig.identity (tokens : TokenConfig) (token : String) (now : Timestamp) :
    Except Rejection String :=
  (tokens.verify token now.seconds).mapError fun failure => .failure (.app failure)

namespace Endpoint

/-- Whoever looks at a token looks at the clock. -/
theorem run_verify (tokens : TokenConfig) (token : String) :
    (verify tokens token).run = .call .now fun now => done (tokens.identity token now) := by
  refine congrArg (call _) (funext fun now => ?_)
  unfold TokenConfig.identity
  cases hverify : tokens.verify token now.seconds <;>
    simp only [Routine.bind, Function.comp, ExceptT.bindCont, hverify] <;> rfl

theorem run_authenticate (tokens : TokenConfig) (r : HttpRequest) :
    (authenticate tokens r).run =
      r.bearer?.elim (done (.error (.failure .noCredentials))) fun token =>
        .call .now fun now => done (tokens.identity token now) := by
  unfold authenticate
  cases r.bearer? with
  | none => rfl
  | some token => exact run_verify tokens token

theorem run_authenticate_of_vouches {app : App} {r : HttpRequest} {userId : String}
    (vouches : app.Vouches g r userId) :
    (authenticate app.tokens r).run.run g = (.ok userId, g) := by
  obtain ⟨token, htoken, hverify⟩ := vouches
  rw [run_authenticate, htoken, Option.elim_some, run_call, TokenConfig.identity]
  exact congrArg (fun result => (Except.mapError _ result, g)) hverify

theorem run_body (r : HttpRequest) :
    (body SendMessage.record SendMessage.check r).run = done (SendMessage.ofBody r) := by
  unfold body SendMessage.ofBody
  cases readBody (SendMessage.record.read Json.depthLimit) r with
  | error fault => rfl
  | ok request => cases hcheck : request.check <;> simp only [hcheck] <;> rfl

theorem run_serve_bind {α β : Type} (service : Service α) (f : α → Endpoint β) :
    (serve service >>= f).run = service.run >>= fun
      | .ok a => (f a).run
      | .error failure => done (.error (.failure (.service failure))) := by
  refine (Routine.bind_assoc _ _ _).trans (congrArg (_ >>= ·) (funext fun result => ?_))
  cases result <;> rfl

end Endpoint

namespace App

/-- The endpoint looks at the token, at the body, and then sends. -/
theorem run_sendMessage (app : App) (r : HttpRequest) :
    (app.sendMessage r).run =
      r.bearer?.elim (done (.error (.failure .noCredentials))) fun token => .call .now fun now =>
        match app.tokens.identity token now, SendMessage.ofBody r with
        | .error rejection, _ | .ok _, .error rejection => done (.error rejection)
        | .ok userId, .ok request => deliver Endpoint.told Endpoint.refused userId request := by
  have hsend : ∀ userId request,
      (do
        let message ← Endpoint.serve (RoomRelay.sendMessage userId request)
        discard (Endpoint.perform (broadcast (messageEnvelope message)))
        return HttpResponse.json 201 message.response : Endpoint HttpResponse).run =
      deliver Endpoint.told Endpoint.refused userId request := by
    intro userId request
    rw [← sendMessage_bind, Endpoint.run_serve_bind]
    refine congrArg (_ >>= ·) (funext fun result => ?_)
    rcases result with failure | message
    · rfl
    · exact run_discard_lift_bind (broadcast (messageEnvelope message)) _
  unfold App.sendMessage
  rw [ExceptT.run_bind, Endpoint.run_authenticate]
  cases r.bearer? with
  | none => rfl
  | some token =>
    -- The only call before the message is sent is to the clock.
    refine congrArg (call _) (funext fun now => ?_)
    cases hidentity : app.tokens.identity token now with
    | error rejection =>
      simp only [hidentity]
      rfl
    | ok userId =>
      simp only [hidentity]
      change ExceptT.run (Endpoint.body SendMessage.record SendMessage.check r >>= _) = _
      rw [ExceptT.run_bind, Endpoint.run_body]
      cases SendMessage.ofBody r with
      | error rejection => rfl
      | ok request => exact hsend userId request

/-- What is shown of an answer: the body is left out if only its head is asked for. -/
def shown (r : HttpRequest) (response : HttpResponse) : HttpResponse :=
  { response with bodiless := r.method = "HEAD" }

/-- What is answered when the endpoint has done its work. -/
def reply (r : HttpRequest) : Except Rejection HttpResponse → Routine HttpResponse
  | .ok response => done (shown r response)
  | .error rejection => done (shown r rejection.response)

theorem answer_eq (app : App) {r : HttpRequest} {action : Action} (h : action? r = some action) :
    app.answer r = (app.endpoint r action).run >>= reply r := by
  unfold App.answer
  rw [h]
  refine (Routine.bind_assoc _ _ _).trans (congrArg (_ >>= ·) (funext fun result => ?_))
  cases result <;> rfl

/-- What the endpoint does once it knows the caller. -/
def sendAs (userId : String) (r : HttpRequest) : Routine (Except Rejection HttpResponse) :=
  match SendMessage.ofBody r with
  | .error rejection => done (.error rejection)
  | .ok request => deliver Endpoint.told Endpoint.refused userId request

/-- With a valid token the endpoint has looked at the clock and knows the caller. -/
theorem run_sendMessage_of_vouches {app : App} {r : HttpRequest} {userId : String}
    (vouches : app.Vouches g r userId) :
    ∃ next : Timestamp → Routine (Except Rejection HttpResponse),
      (app.sendMessage r).run = .call .now next ∧ next g.supply.now = sendAs userId r := by
  obtain ⟨token, htoken, hverify⟩ := vouches
  have hidentity : app.tokens.identity token g.supply.now = .ok userId := by
    rw [TokenConfig.identity, hverify]
    rfl
  rw [run_sendMessage, htoken]
  refine ⟨_, rfl, ?_⟩
  simp only [hidentity, sendAs]
  cases SendMessage.ofBody r <;> rfl

/-- A request for a message that carries a valid token is answered in one of two ways. -/
theorem run_answer_of_postedBy {app : App} {r : HttpRequest} {userId : String}
    (posted : request.PostedBy r) (vouches : app.Vouches g r userId) :
    (∃ message g', g.delivery userId request = .ok (message, g') ∧
      (app.answer r).run g = (shown r (.json 201 message.response), g') ∧
      (app.answer r).envelopes g = [messageEnvelope message]) ∨
    ∃ reason failure, g.delivery userId request = .error reason ∧
      (app.answer r).run g = (shown r (Rejection.failure failure).response, g) ∧
      (app.answer r).envelopes g = [] := by
  obtain ⟨text, tree, hbody, htext, hdepth, hspells⟩ := posted.spelt
  have hread := SendMessage.read_of_isBody hspells hdepth posted.json posted.fits hbody htext
  obtain ⟨next, hsend, hnext⟩ := run_sendMessage_of_vouches vouches
  have hendpoint : (app.endpoint r .sendMessage).run = .call .now next := hsend
  -- The clock shows what the gateway says, so the routine goes on as the caller.
  have hrun : (app.answer r).run g = (sendAs userId r >>= reply r).run g ∧
      (app.answer r).envelopes g = (sendAs userId r >>= reply r).envelopes g := by
    rw [app.answer_eq posted.action, hendpoint, ← hnext]
    exact ⟨rfl, rfl⟩
  rw [hrun.1, hrun.2, run_bind, envelopes_bind]
  unfold sendAs SendMessage.ofBody
  simp only [hread]
  cases hcheck : request.check with
  | error fault =>
    have hrefusal : g.delivery userId request = .error (.validation fault.message) := by
      simp only [Gateway.delivery, SendMessage.refusal?, hcheck]
    exact .inr ⟨_, .limits fault, hrefusal, rfl, rfl⟩
  | ok _ =>
    simp only [run_deliver, envelopes_deliver]
    cases hdelivery : g.delivery userId request with
    | error reason => exact .inr ⟨reason, .service reason, rfl, rfl, rfl⟩
    | ok result => exact .inl ⟨result.1, result.2, rfl, rfl, rfl⟩

end App

/-- A command to send a message is carried out in one of two ways. -/
theorem run_dispatch_sendMessage (session : Session) (request : SendMessage)
    (payload : SendPayload)
    (h : Uuid.parse? (Text.trim payload.roomId) = some request.roomId)
    (hcontent : request = ⟨request.roomId, payload.content, payload.kind, payload.metadata⟩) :
    (∃ message g', g.delivery session.userId request = .ok (message, g') ∧
      (dispatch session (.sendMessage payload)).run.run g =
        (.ok (), { g' with notes := .messageBroadcast :: g'.notes }) ∧
      (dispatch session (.sendMessage payload)).run.envelopes g = [messageEnvelope message]) ∨
    ∃ reason, g.delivery session.userId request = .error reason ∧
      (dispatch session (.sendMessage payload)).run.run g = (.error (.service reason), g) ∧
      (dispatch session (.sendMessage payload)).run.envelopes g = [] := by
  have hdispatch : dispatch session (.sendMessage payload) = handleSend session payload := rfl
  rw [hdispatch, run_handleSend h, ← hcontent, run_deliver, envelopes_deliver]
  cases hdelivery : g.delivery session.userId request with
  | error reason => exact .inr ⟨reason, rfl, rfl, rfl⟩
  | ok result => exact .inl ⟨result.1, result.2, rfl, rfl, rfl⟩

/-- How the handling of a text goes on when its command has been carried out. -/
def afterDispatch : Except CommandFailure Unit → Routine Unit
  | .ok () => done ()
  | .error failure => note (if failure.isClientFault then .commandRejected else .commandFailed)

theorem handleCommand_eq (session : Session) (command : Command) :
    handleCommand session command = (dispatch session command).run >>= afterDispatch := by
  refine congrArg (_ >>= ·) (funext fun result => ?_)
  rcases result with failure | _ <;> rfl

/-- A text on an open session is acted upon. -/
theorem run_handleText {text : String} {command : Command}
    (listens : g.hub.isClosed session.id = false) (hparse : Command.parse text = .ok command) :
    (handleText session text).run g = ((dispatch session command).run >>= afterDispatch).run g ∧
      (handleText session text).envelopes g =
        ((dispatch session command).run >>= afterDispatch).envelopes g := by
  have hask : ∀ f : Bool → Routine Unit, (ask (.isClosed session.id) >>= f).run g =
      (f false).run g ∧ (ask (.isClosed session.id) >>= f).envelopes g = (f false).envelopes g := by
    intro f
    change (f (g.hub.isClosed session.id)).run g = _ ∧
      (f (g.hub.isClosed session.id)).envelopes g = _
    rw [listens]
    exact ⟨rfl, rfl⟩
  unfold handleText
  rw [(hask _).1, (hask _).2, if_neg Bool.false_ne_true, hparse, ← handleCommand_eq]
  exact ⟨rfl, rfl⟩

theorem DomainFailure.status_ne_created (failure : DomainFailure) : failure.status ≠ 201 := by
  cases failure <;> simp [status, isNotFound, isValidation]

/-- No failure is told as a success. -/
theorem RequestFailure.status_ne_created (failure : RequestFailure) : failure.status ≠ 201 := by
  rcases failure with f | f | _ | _ | _ | _ | _
  · cases f <;> simp [status, AppFailure.status, DomainFailure.status_ne_created]
  · cases f <;> simp [status, ServiceFailure.status, DomainFailure.status_ne_created]
  all_goals simp [status]

/-- The fields that a frame about a message and the answer to a request both have. -/
def sharedKeys : List String :=
  ["id", "roomId", "senderId", "content", "kind", "metadata", "createdAt"]

theorem field?_response (message : Message) {key : String} (h : key ∈ sharedKeys) :
    message.response.field? key = (Json.Value.object message.commonFields).field? key := by
  have hne : "updatedAt" ≠ key := by
    rintro rfl
    simp [sharedKeys] at h
  simp [Json.Value.field?, Json.Value.fields, Message.response, List.find?_append, hne]

theorem frame_messageEnvelope (message : Message) : (messageEnvelope message).frame =
    (Json.Value.object [("type", .string "new_message"),
      ("payload", .object message.commonFields)]).render := rfl

/-- **Two ways to send.** Take any gateway, an open session, and any room, text, kind and metadata.
A text on the session that spells the command to send these, and a request of the session's identity
with a valid token that posts them, are accepted alike. They leave the same gateway behind but for
its log: the same messages, rooms, registry and queues. If they are accepted, one and the same
envelope is broadcast, and the payload of its frame has the same shared fields as the answer. -/
theorem sends_agree {app : App} {text : String} {r : HttpRequest} (framed : request.FramedBy text)
    (posted : request.PostedBy r) (vouches : app.Vouches g r session.userId)
    (listens : g.hub.isClosed session.id = false) :
    ∃ command, Command.parse text = .ok command ∧
      (((dispatch session command).run.run g).1 = .ok () ↔ ((app.answer r).run g).1.status = 201) ∧
      ((handleText session text).run g).2 =
        { ((app.answer r).run g).2 with notes := ((handleText session text).run g).2.notes } ∧
      (((app.answer r).run g).1.status = 201 →
        ∃ envelope payload document, (handleText session text).envelopes g = [envelope] ∧
          (app.answer r).envelopes g = [envelope] ∧
          envelope.frame =
            (Json.Value.object [("type", .string "new_message"), ("payload", payload)]).render ∧
          ((app.answer r).run g).1.body = .json document ∧
          ∀ key ∈ sharedKeys, payload.field? key = document.field? key) := by
  obtain ⟨raw, tree, hroom, hframe, hdepth, htext⟩ := framed
  have hparse := Command.parse_of_isFrameOf hframe hdepth htext
  refine ⟨_, hparse, ?_⟩
  obtain ⟨htold, htells⟩ := run_handleText listens hparse
  rw [htold, htells, run_bind, envelopes_bind]
  -- Both ways come down to `deliver` in the same gateway, so they cannot come apart.
  obtain ⟨message, g', hok, hrun, henvelopes⟩ | ⟨reason, herror, hrun, henvelopes⟩ :=
    run_dispatch_sendMessage (g := g) session request
      ⟨raw, request.content, request.kind, request.metadata⟩ hroom rfl
  · obtain ⟨message', g'', hok', hanswer, hanswers⟩ | ⟨_, _, herror', _⟩ :=
      App.run_answer_of_postedBy posted vouches
    · obtain ⟨rfl, rfl⟩ : message' = message ∧ g'' = g' := by
        simpa using hok'.symm.trans hok
      rw [hrun, henvelopes, hanswer, hanswers]
      refine ⟨⟨fun _ => rfl, fun _ => rfl⟩, rfl, fun _ => ?_⟩
      refine ⟨_, .object message'.commonFields, message'.response, rfl, rfl,
        frame_messageEnvelope message', rfl, ?_⟩
      exact fun key hkey => (field?_response message' hkey).symm
    · exact absurd (hok.symm.trans herror') (by simp)
  · obtain ⟨_, _, hok', _⟩ | ⟨_, failure, _, hanswer, hanswers⟩ :=
      App.run_answer_of_postedBy posted vouches
    · exact absurd (hok'.symm.trans herror) (by simp)
    · rw [hrun, henvelopes, hanswer, hanswers]
      have hstatus : (App.shown r (Rejection.failure failure).response).status ≠ 201 :=
        failure.status_ne_created
      refine ⟨⟨fun h => (by simp at h), fun h => absurd h hstatus⟩, rfl, fun h => absurd h hstatus⟩

/-! ### A greeting -/

/-- The room of the greeting. -/
def parlourId : Uuid := .version4 7

/-- The session of a guest. -/
def guest : Session := ⟨.version4 1, "alice"⟩

/-- A gateway with one room and an open session. -/
def parlour : Gateway where
  hub := Hub.openSession {} guest 4
  rooms := RoomStore.add {} (.ofPlan ⟨"parlour", .group, "alice"⟩ ["alice"] parlourId default)
  supply := { ids := .version4, times := fun _ => default }

/-- An application with a short secret. -/
def doorkeeper : App := ⟨"relay", { secret := "s", lifetime := 3600 }, .any⟩

/-- A token of the guest. -/
def guestToken : String :=
  "eyJ0eXAiOiJKV1QiLCJhbGciOiJIUzI1NiJ9." ++
  "eyJzdWIiOiJhbGljZSIsImlhdCI6MTAwMCwiZXhwIjo0NjAwLCJ0b2tlbl90eXBlIjoiYWNjZXNzIn0." ++
  "BjvhBP0N01ndcUSUFPu6Hl8vM3PWhxj7RLkw0ICs6OA"

/-- What the guest sends. -/
def greeting : SendMessage := ⟨parlourId, "hi", .text, none⟩

/-- The room as it is named over the socket, with blanks around it. -/
def parlourSpoken : String := " 00000000-0000-4000-8000-000000000007 "

/-- The room as it is named in the request. -/
def parlourWritten : String := "URN:UUID:00000000-0000-4000-8000-000000000007"

/-- The greeting as a text, with an old key for the room. -/
def spoken : String :=
  "\x7b\"type\":\"send_message\",\"payload\":\x7b\"conversationId\":\"" ++ parlourSpoken ++
  "\",\"content\":\"hi\"\x7d\x7d"

/-- The greeting as a request. -/
def letter : HttpRequest where
  method := "POST"
  path := "/messages"
  headers := [("authorization", "Bearer " ++ guestToken), ("content-type", "application/json")]
  body := Utf8.bytes
    ("\x7b\"content\":\"hi\",\"roomId\":\"" ++ parlourWritten ++ "\"\x7d")

theorem framedBy_spoken : greeting.FramedBy spoken := by
  have hnil := Json.blanks_nil
  have hkey : "conversationId" ∈ Command.roomKeys := by decide
  have hpayload : Command.IsPayload Command.denoted
      (.sendMessage ⟨parlourSpoken, greeting.content, greeting.kind, greeting.metadata⟩)
      (("conversationId", .string parlourSpoken) :: ("content", .string "hi") :: ([] ++ [])) :=
    .send hkey rfl rfl .omitted .omitted
  have hcontent : Json.Members false [("content", .string "hi")] _ :=
    .cons (.next hnil hnil) (Json.quoted_of_all (by decide)) hnil hnil
      (.string (Json.quoted_of_all (by decide))) (.nil hnil)
  have hroom : Json.Quoted parlourSpoken _ := Json.quoted_of_all (by decide)
  have hobject := Json.Spells.object <| .cons (.first hnil)
    (@Json.quoted_of_all "conversationId" (by decide)) hnil hnil (.string hroom) hcontent
  have hframe := Json.Members.cons (.next hnil hnil)
    (@Json.quoted_of_all "payload" (by decide)) hnil hnil hobject (.nil hnil)
  have htext := Json.Spells.object <| .cons (.first hnil)
    (@Json.quoted_of_all "type" (by decide)) hnil hnil
    (.string (@Json.quoted_of_all "send_message" (by decide))) hframe
  refine ⟨parlourSpoken, _, by decide +kernel, ⟨"send_message", _, _, _, by decide, hpayload,
    .refl _, .refl _, rfl⟩, by decide, [], _, [], hnil, htext, hnil, ?_⟩
  decide +kernel

theorem postedBy_letter : greeting.PostedBy letter where
  action := by decide
  json := by decide
  fits := by
    rw [letter, Utf8.bytes_eq_flatMap]
    decide +kernel
  spelt := by
    have hnil := Json.blanks_nil
    have hkey : "roomId" ∈ Command.roomKeys := by decide
    have hpayload : Command.IsPayload Command.denoted
        (.sendMessage ⟨parlourWritten, greeting.content, greeting.kind, greeting.metadata⟩)
        (("roomId", .string parlourWritten) :: ("content", .string "hi") :: ([] ++ [])) :=
      .send hkey rfl rfl .omitted .omitted
    have hroom : Json.Quoted parlourWritten _ := Json.quoted_of_all (by decide)
    have hmore : Json.Members false [("roomId", .string parlourWritten)] _ :=
      .cons (.next hnil hnil) (Json.quoted_of_all (by decide)) hnil hnil (.string hroom)
        (.nil hnil)
    have htext := Json.Spells.object <| .cons (.first hnil)
      (@Json.quoted_of_all "content" (by decide)) hnil hnil
      (.string (@Json.quoted_of_all "hi" (by decide))) hmore
    refine ⟨_, _, rfl, ⟨[], _, [], hnil, htext, hnil, ?_⟩, by decide, parlourWritten, _, _,
      by decide +kernel, hpayload, .swap _ _ _, rfl⟩
    decide +kernel

theorem vouches_letter : doorkeeper.Vouches parlour letter guest.userId :=
  ⟨guestToken, by decide +kernel, Command.ok_of_toOption (by decide +kernel)⟩

/-- The greeting is accepted over the socket, so the request is answered as a success, and the guest
is told of one message. -/
theorem sends_agree_greeting : ((doorkeeper.answer letter).run parlour).1.status = 201 ∧
    ∃ envelope, (handleText guest spoken).envelopes parlour = [envelope] ∧
      (doorkeeper.answer letter).envelopes parlour = [envelope] := by
  obtain ⟨command, hcommand, hiff, -, hshared⟩ :=
    sends_agree framedBy_spoken postedBy_letter vouches_letter rfl
  have hspoken : Command.parse spoken = .ok (.sendMessage ⟨parlourSpoken, "hi", .text, none⟩) :=
    Command.ok_of_toOption (by decide +kernel)
  obtain rfl := Except.ok.inj (hspoken.symm.trans hcommand)
  have hrefusal : greeting.refusal? = none := by decide +kernel
  have haccepted : ((dispatch guest (.sendMessage ⟨parlourSpoken, "hi", .text, none⟩)).run.run
      parlour).1 = .ok () := by
    obtain ⟨_, _, -, hrun, -⟩ | ⟨reason, herror, -⟩ := run_dispatch_sendMessage (g := parlour) guest
      greeting ⟨parlourSpoken, "hi", .text, none⟩ (by decide +kernel) rfl
    · rw [hrun]
    · exact absurd herror (Gateway.delivery_ne_error hrefusal rfl reason)
  have hstatus := hiff.mp haccepted
  obtain ⟨envelope, _, _, hsocket, hendpoint, -⟩ := hshared hstatus
  exact ⟨hstatus, envelope, hsocket, hendpoint⟩

end RoomRelay
