import RoomRelay.Proofs.Gateway.Spellings
import RoomRelay.Proofs.Gateway.Transcript

/-!
# How texts and requests are dealt with

Whatever text comes in on a session and whatever request comes to the endpoint of messages, it is
dealt with in one of two ways. Either nothing happens that has to do with messages, and rooms are
at most told who types; or just one message is stored, in the name of the session's identity or of
the one that the request's token was verified for, and just then its room is told of it. This is
shown for transcripts, so whatever other work is done at the same time.

## Main definitions

* `Work` — a text on a session, or a request
* `Work.Vouches`, `Work.Accepted` — in whose name work is done, and how it ends if it is accepted
* `Work.Dealings` — what a transcript of the work comes to

## Main results

* `Work.dealings` — every transcript comes to this
-/

namespace RoomRelay

open Routine

/-- What clients bring: a text on a session, or a request. -/
inductive Work
  | text (session : Session) (text : String)
  | request (r : HttpRequest)
  deriving DecidableEq

namespace Work

/-- What the work ends with. -/
abbrev Result : Work → Type
  | text _ _ => Unit
  | request _ => HttpResponse

/-- How the work is done. -/
def routine (app : App) : (work : Work) → Routine work.Result
  | text session content => handleText session content
  | request r => app.answer r

/-- The work may be about messages: texts always, requests if they add to the messages. -/
def IsPosting : Work → Prop
  | text _ _ => True
  | request r => App.action? r = some .sendMessage

instance : DecidablePred IsPosting
  | text _ _ => .isTrue trivial
  | request r => inferInstanceAs (Decidable (App.action? r = some .sendMessage))

/-- The work is done in the name of an identity: that of the session, or the one that the token of
the request was verified for at the time that the clock showed. -/
def Vouches (app : App) (log : List Exchange) : Work → String → Prop
  | text session _, userId => userId = session.userId
  | request r, userId => ∃ token now, r.bearer? = some token ∧ (⟨.now, now⟩ : Exchange) ∈ log ∧
      app.tokens.verify token now.seconds = .ok userId

/-- The work has been accepted: it was noted that a message was broadcast, or the answer says so. -/
def Accepted (log : List Exchange) : (work : Work) → work.Result → Prop
  | text _ _, _ => (⟨.note .messageBroadcast, ()⟩ : Exchange) ∈ log
  | request _, response => response.status = 201

end Work

/-- The call is silent, or it tells a room that somebody types or has stopped. -/
def Call.IsAside (c : Call) : Prop :=
  c.IsSilent ∨ ∃ session key isTyping, c = .broadcast (typingEnvelope session key isTyping)

/-- What a transcript of some work comes to, with what is left of the work. -/
inductive Work.Dealings (app : App) (work : Work) (log : List Exchange)
    (rest : Routine work.Result) : Prop
  /-- No message is stored and no room is told of one, and the work is not accepted. -/
  | aside (aside : ∀ e ∈ log, e.request.IsAside)
    (unaccepted : ∀ result, rest = done result → ¬ work.Accepted log result)
  /-- One message is stored and its room is told, so far or in a while, and the work is accepted
  when all that is done. -/
  | sends {draft : MessageDraft} {message : Message} {tail : List Exchange}
    (stored : ⟨.storage (.createMessage draft), .ok message⟩ ∈ log)
    (sends : Sends draft message (log ++ tail)) (vouched : work.Vouches app log draft.senderId)
    (accepted : ∀ result, rest = done result → tail = [] ∧ work.Accepted log result)

namespace Sends

variable {draft : MessageDraft} {message : Message} {log back : List Exchange} {e : Exchange}

theorem cons (h : Sends draft message log) (silent : e.request.IsSilent) :
    Sends draft message (e :: log) := by
  obtain ⟨hlooked, hnotes⟩ := h
  exact .intro (List.forall_mem_cons.mpr ⟨silent, hlooked⟩) hnotes

theorem append (h : Sends draft message log) (noted : ∀ e ∈ back, e.request.IsNote) :
    Sends draft message (log ++ back) := by
  obtain ⟨hlooked, hnotes⟩ := h
  rw [List.append_assoc, List.cons_append, List.cons_append, List.cons_append]
  exact .intro hlooked (List.forall_mem_append.mpr ⟨hnotes, noted⟩)

end Sends

theorem Call.IsSilent.isAside {c : Call} (h : c.IsSilent) : c.IsAside := Or.inl h

/-- A request to send a message, if what comes before, after it is accepted and after it is refused
is known. -/
theorem Work.dealings_deliver {app : App} {work : Work} {told : Message → Routine work.Result}
    {refused : ServiceFailure → Routine work.Result} {senderId : String} {request : SendMessage}
    {e : Exchange} {log : List Exchange} {rest : Routine work.Result}
    (h : (deliver told refused senderId request).Follows log rest)
    (genuine : ∀ e ∈ log, e.Genuine) (silent : e.request.IsSilent)
    (vouched : work.Vouches app (e :: log) senderId)
    (htold : ∀ message back, (told message).Follows back rest → (∀ e ∈ back, e.request.IsNote) ∧
      ∀ front result, rest = done result → work.Accepted (front ++ back) result)
    (hrefused : ∀ failure front back, (refused failure).Follows back rest →
      (∀ e ∈ front, e.request.IsSilent) → Dealings app work (front ++ back) rest) :
    Dealings app work (e :: log) rest := by
  obtain ⟨front, back, rfl, hfront, hback⟩ |
      ⟨message, front, back, tail, rfl, hmem, hsends, hback⟩ := follows_deliver h genuine
  · have hlooked : ∀ e' ∈ e :: front, e'.request.IsSilent :=
      List.forall_mem_cons.mpr ⟨silent, hfront⟩
    obtain ⟨failure, hfollows⟩ | ⟨rfl, hopen⟩ := hback
    · exact hrefused failure (e :: front) back hfollows hlooked
    · rw [List.append_nil]
      exact .aside (fun e he => (hlooked e he).isAside) fun result hdone =>
        absurd hdone (hopen result)
  · have hstored : ⟨.storage (.createMessage (request.draft senderId)), .ok message⟩ ∈
        e :: (front ++ back) := List.mem_cons_of_mem _ (List.mem_append_left _ hmem)
    obtain ⟨rfl, hfollows⟩ | ⟨rfl, hopen⟩ := hback
    · obtain ⟨hnotes, haccepted⟩ := htold message back hfollows
      have hall : Sends (request.draft senderId) message (e :: (front ++ back) ++ []) := by
        simpa using (hsends.cons silent).append hnotes
      exact .sends hstored hall vouched fun result hdone =>
        ⟨rfl, haccepted (e :: front) result hdone⟩
    · rw [List.append_nil] at hstored vouched ⊢
      exact .sends hstored (hsends.cons silent) vouched fun result hdone =>
        absurd hdone (hopen result)

/-! ### Texts -/

section Texts

variable {app : App} {session : Session} {text : String} {log : List Exchange}
variable {rest : Routine Unit} {e : Exchange}

theorem Call.not_isAside_messageBroadcast : ¬ (Call.note .messageBroadcast).IsAside := by
  rintro (h | ⟨_, _, _, h⟩)
  · exact h rfl
  · cases h

/-- A text that is only looked at is not accepted. -/
theorem Work.dealings_of_aside (aside : ∀ e ∈ log, e.request.IsAside) :
    Dealings app (.text session text) log rest :=
  .aside aside fun _ _ haccepted => Call.not_isAside_messageBroadcast (aside _ haccepted)

theorem within_note {n : Note} (h : n ≠ .messageBroadcast) :
    (note n).Within Call.IsAside fun _ => True :=
  ⟨Or.inl h, fun _ => trivial⟩

/-- Nothing that comes after a command has been carried out has to do with messages. -/
theorem within_afterDispatch (result : Except CommandFailure Unit) :
    (afterDispatch result).Within Call.IsAside fun _ => True := by
  cases result with
  | ok _ => exact trivial
  | error failure =>
    refine within_note ?_
    split <;> simp

theorem within_typing (session : Session) (key : String) (isTyping : Bool) :
    (broadcast (typingEnvelope session key isTyping)).Within Call.IsAside fun _ => True := by
  refine ⟨Or.inr ⟨session, key, isTyping, rfl⟩, fun report => ?_⟩
  have hnotes : (noteTimes .queueOverflow report.overflowed).Within Call.IsAside fun _ => True :=
    within_noteTimes (Or.inl nofun) _
  exact hnotes.bind fun _ _ => trivial

/-- A command that sends no message. -/
theorem within_dispatch {command : Command} (h : command.kind ≠ .send) :
    (dispatch session command).run.Within Call.IsAside fun _ => True := by
  cases command with
  | sendMessage => cases h rfl
  | joinRoom raw =>
    cases hkey : roomKey raw with
    | none =>
      simp only [dispatch, Handler.requireRoom, hkey]
      exact trivial
    | some key =>
      rw [dispatch_joinRoom hkey]
      exact ⟨Or.inl trivial, fun _ => within_note (by decide)⟩
  | leaveRoom raw =>
    cases hkey : roomKey raw with
    | none =>
      simp only [dispatch, Handler.requireRoom, hkey]
      exact trivial
    | some key =>
      rw [dispatch_leaveRoom hkey]
      exact ⟨Or.inl trivial, fun _ => within_note (by decide)⟩
  | typing raw isTyping =>
    cases hkey : roomKey raw with
    | none =>
      simp only [dispatch, handleTyping, Handler.requireRoom, hkey]
      exact trivial
    | some key =>
      rw [dispatch, run_handleTyping hkey]
      refine ⟨Or.inl trivial, fun reply => ?_⟩
      have hmarked : (if reply.isOk then done () else note .typingMarkerFailed).Within Call.IsAside
          fun _ => True := by
        split
        · exact trivial
        · exact within_note (by decide)
      exact hmarked.bind fun _ _ => (within_typing session key isTyping).bind fun _ _ => trivial

/-- A text that asks for a message to be sent. -/
theorem Work.dealings_send {payload : SendPayload}
    (h : (handleCommand session (.sendMessage payload)).Follows log rest)
    (genuine : ∀ e ∈ log, e.Genuine) (silent : e.request.IsSilent) :
    Dealings app (.text session text) (e :: log) rest := by
  rw [handleCommand_eq, dispatch] at h
  cases hroom : Uuid.parse? (Text.trim payload.roomId) with
  | none =>
    have hrun : (handleSend session payload).run =
        done (.error (.payload ("invalid roomId: " ++ payload.roomId))) := by
      simp only [handleSend, Handler.requireUuid, hroom]
      rfl
    rw [hrun, done_bind] at h
    refine dealings_of_aside (List.forall_mem_cons.mpr ⟨silent.isAside, ?_⟩)
    exact (h.within (within_afterDispatch _)).1
  | some roomId =>
    rw [run_handleSend hroom, deliver_bind] at h
    refine dealings_deliver h genuine silent rfl ?_ ?_
    · -- It remains to note that the message was broadcast.
      intro message back htold
      cases htold with
      | refl => exact ⟨List.forall_mem_nil _, fun _ _ hdone => by cases hdone⟩
      | call more =>
        obtain ⟨rfl, rfl⟩ := more.of_done
        exact ⟨List.forall_mem_singleton.mpr trivial, fun _ _ _ => by simp [Accepted]⟩
    · intro failure front back hrefused hfront
      refine dealings_of_aside (List.forall_mem_append.mpr ⟨fun e he => (hfront e he).isAside, ?_⟩)
      exact (hrefused.within (within_afterDispatch (.error (.service failure)))).1

/-- What happens to a text that is heard, once it has been decoded. -/
def actUpon (session : Session) : Except Json.Fault Command → Routine Unit
  | .ok command => handleCommand session command
  | .error _ => note .frameDiscarded

theorem Work.dealings_text (h : (handleText session text).Follows log rest)
    (genuine : ∀ e ∈ log, e.Genuine) : Dealings app (.text session text) log rest := by
  cases h with
  | refl => exact dealings_of_aside (List.forall_mem_nil _)
  | @call _ _ closed log _ more =>
    rw [List.forall_mem_cons] at genuine
    have hsilent : (⟨.isClosed session.id, closed⟩ : Exchange).request.IsSilent := trivial
    have hquiet : ∀ {r : Routine Unit}, r.Follows log rest → r.Within Call.IsAside (fun _ => True) →
        Dealings app (.text session text) (⟨.isClosed session.id, closed⟩ :: log) rest :=
      fun hr hw => dealings_of_aside
        (List.forall_mem_cons.mpr ⟨hsilent.isAside, (hr.within hw).1⟩)
    cases closed with
    | true => exact hquiet more trivial
    | false =>
      have hmore : (actUpon session (Command.parse text)).Follows log rest := more
      cases hparse : Command.parse text with
      | error fault =>
        rw [hparse] at hmore
        exact hquiet hmore (within_note (by decide))
      | ok command =>
        rw [hparse] at hmore
        by_cases hkind : command.kind = .send
        · cases command with
          | sendMessage payload => exact dealings_send hmore genuine.2 hsilent
          | _ => cases hkind
        · refine hquiet hmore ?_
          rw [actUpon, handleCommand_eq]
          exact (within_dispatch hkind).bind fun result _ => within_afterDispatch result

end Texts

/-! ### Requests -/

section Requests

variable {app : App} {r : HttpRequest} {log : List Exchange} {rest : Routine HttpResponse}

/-- A request that is turned down is not accepted. -/
theorem Work.dealings_of_failure {failure : RequestFailure}
    (h : (App.reply r (.error (.failure failure))).Follows log rest) {looked : List Exchange}
    (silent : ∀ e ∈ looked, e.request.IsSilent) :
    Dealings app (.request r) (looked ++ log) rest := by
  obtain ⟨rfl, rfl⟩ := h.of_done
  rw [List.append_nil]
  refine .aside (fun e he => (silent e he).isAside) fun result hdone => ?_
  obtain rfl := Routine.done.inj hdone
  exact failure.status_ne_created

theorem SendMessage.ofBody_error {rejection : Rejection} (h : ofBody r = .error rejection) :
    ∃ failure, rejection = .failure failure := by
  unfold ofBody at h
  split at h
  · exact ⟨_, (Except.error.inj h).symm⟩
  · split at h
    · exact ⟨_, (Except.error.inj h).symm⟩
    · cases h

theorem Work.dealings_request (action : App.action? r = some .sendMessage)
    (h : (app.answer r).Follows log rest) (genuine : ∀ e ∈ log, e.Genuine) :
    Dealings app (.request r) log rest := by
  have hsend : (app.endpoint r .sendMessage).run = (app.sendMessage r).run := rfl
  rw [app.answer_eq action, hsend, App.run_sendMessage] at h
  cases htoken : r.bearer? with
  | none =>
    -- Nothing is called before the request is turned away.
    have hnil : ∀ e ∈ ([] : List Exchange), e.request.IsSilent := List.forall_mem_nil _
    rw [htoken] at h
    exact dealings_of_failure h hnil
  | some token =>
    rw [htoken] at h
    cases h with
    | refl => exact .aside (List.forall_mem_nil _) nofun
    | @call _ _ now log _ more =>
      have hnow : ∀ e ∈ [(⟨.now, now⟩ : Exchange)], e.request.IsSilent :=
        List.forall_mem_singleton.mpr trivial
      cases hverify : app.tokens.verify token now.seconds with
      | error failure =>
        have hidentity : app.tokens.identity token now = .error (.failure (.app failure)) := by
          rw [TokenConfig.identity, hverify]
          rfl
        simp only [hidentity] at more
        exact dealings_of_failure more hnow
      | ok userId =>
        have hidentity : app.tokens.identity token now = .ok userId := by
          rw [TokenConfig.identity, hverify]
          rfl
        simp only [hidentity] at more
        cases hbody : SendMessage.ofBody r with
        | error rejection =>
          obtain ⟨failure, rfl⟩ := SendMessage.ofBody_error hbody
          simp only [hbody] at more
          exact dealings_of_failure more hnow
        | ok request =>
          simp only [hbody] at more
          -- Token and body are sound: what is left is to send the message and to reply.
          change (deliver Endpoint.told Endpoint.refused userId request >>=
            App.reply r).Follows log rest at more
          rw [deliver_bind] at more
          refine dealings_deliver more (List.forall_mem_cons.mp genuine).2 trivial ?_ ?_ ?_
          · exact ⟨token, now, htoken, List.mem_cons_self, hverify⟩
          · intro message back htold
            obtain ⟨rfl, rfl⟩ := htold.of_done
            refine ⟨List.forall_mem_nil _, fun _ result hdone => ?_⟩
            obtain rfl := Routine.done.inj hdone
            rfl
          · exact fun failure front back hrefused hfront => dealings_of_failure hrefused hfront

end Requests

/-- Whatever work is done, one of the two things happens. -/
theorem Work.dealings {app : App} {work : Work} (posting : work.IsPosting) {log : List Exchange}
    {rest : Routine work.Result} (h : (work.routine app).Follows log rest)
    (genuine : ∀ e ∈ log, e.Genuine) : Dealings app work log rest := by
  cases work with
  | text session content => exact dealings_text h genuine
  | request r => exact dealings_request posting h genuine

end RoomRelay
