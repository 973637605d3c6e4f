import RoomRelay.Proofs.Gateway.Spellings

/-!
# A text is acted upon as a whole or not at all

A text on a session may be refused at several points: the session is closed, the text spells no
command, the command names no room, or a message breaks its limits or is for no room that exists.
All of these come before anything is changed. What is done after them cannot fail, so a text that is
not refused is acted upon to the end.

## Main definitions

* `Gateway.Declines`, `Gateway.Refuses` — why a command or a text is refused
* `Gateway.Applies` — what a command changes

## Main results

* `dispatch_of_declines`, `dispatch_of_not_declines` — a command fails without effect, or is applied
* `text_refused_or_applied` — so is a text
-/

namespace RoomRelay

open Routine

variable {g : Gateway} {session : Session} {raw key : String} {payload : SendPayload}
variable {command : Command}

/-- The room that a command names. -/
def Command.room : Command → String
  | joinRoom raw | leaveRoom raw | typing raw _ => raw
  | sendMessage payload => payload.roomId

/-- The message that a payload of a session becomes, with the next identifier and clock reading. -/
def Gateway.nextMessage (g : Gateway) (session : Session) (roomId : Uuid) (payload : SendPayload) :
    Message :=
  .ofDraft ⟨roomId, session.userId, payload.content, payload.kind, payload.metadata⟩
    (g.supply.ids g.supply.issued) (g.supply.times g.supply.readings)

namespace Gateway

/-- Why a command is refused. -/
inductive Declines (g : Gateway) : Command → Prop
  /-- It names no room. -/
  | roomless {command : Command} (blank : Text.trim command.room = "") : Declines g command
  /-- A message is for a room that is not named by an identifier. -/
  | notUuid {payload : SendPayload} (noUuid : Uuid.parse? (Text.trim payload.roomId) = none) :
    Declines g (.sendMessage payload)
  /-- A message is too long. -/
  | tooLong {payload : SendPayload} (long : 4000 < payload.content.length) :
    Declines g (.sendMessage payload)
  /-- A message has nothing but blanks in it. -/
  | empty {payload : SendPayload} (blank : ∀ c ∈ payload.content.toList, isBlankChar c = true) :
    Declines g (.sendMessage payload)
  /-- A message is for a room that does not exist. -/
  | unknownRoom {payload : SendPayload} {roomId : Uuid}
    (named : Uuid.parse? (Text.trim payload.roomId) = some roomId)
    (absent : g.rooms.get? roomId = none) : Declines g (.sendMessage payload)

/-- Why a text on a session is refused. -/
inductive Refuses (g : Gateway) (session : Session) (text : String) : Prop
  /-- The session is closed. -/
  | closed (closed : g.hub.isClosed session.id = true)
  /-- The text spells no command. -/
  | garbled {fault : Json.Fault} (parsed : Command.parse text = .error fault)
  /-- The command is refused. -/
  | declined {command : Command} (parsed : Command.parse text = .ok command)
    (declines : g.Declines command)

/-- What a command of a session changes; everything else but the notes stays as it is. -/
inductive Applies (g : Gateway) (session : Session) : Command → Gateway → Prop
  /-- The session is made a member of the room. -/
  | join {raw key : String} {notes : List Note} (named : roomKey raw = some key) :
    Applies g session (.joinRoom raw) { g with hub := (g.hub.join session.id key).2, notes }
  /-- The session is taken out of the room. -/
  | leave {raw key : String} {notes : List Note} (named : roomKey raw = some key) :
    Applies g session (.leaveRoom raw) { g with hub := (g.hub.leave session.id key).2, notes }
  /-- The presence store notes that the session types or has stopped, and the room is told. -/
  | typing {raw key : String} {isTyping : Bool} {notes : List Note}
    (named : roomKey raw = some key) :
    Applies g session (.typing raw isTyping)
      { g with
        hub := (g.hub.broadcast (typingEnvelope session key isTyping)).2
        presence := (g.presence.answer g.elapsed (typingMark key session.userId isTyping)).2
        notes }
  /-- The message is stored, its room is active, and the room is told. -/
  | send {payload : SendPayload} {roomId : Uuid} {notes : List Note}
    (named : Uuid.parse? (Text.trim payload.roomId) = some roomId) :
    Applies g session (.sendMessage payload)
      { g with
        hub := (g.hub.broadcast (messageEnvelope (g.nextMessage session roomId payload))).2
        messages := g.messages.append (g.nextMessage session roomId payload)
        rooms := g.rooms.touch roomId (g.supply.times (g.supply.readings + 1))
        supply := { g.supply with
          issued := g.supply.issued + 1
          readings := g.supply.readings + 2 }
        notes }

end Gateway

/-! ### Commands -/

/-- A message is not refused if it is within its limits and not blank. -/
theorem SendMessage.refusal?_eq_none_iff {request : SendMessage} :
    request.refusal? = none ↔ ¬ 4000 < request.content.length ∧
      ¬ ∀ c ∈ request.content.toList, isBlankChar c = true := by
  have hiff : Text.isBlank request.content = true ↔
      ∀ c ∈ request.content.toList, isBlankChar c = true := List.all_eq_true
  unfold refusal? check
  by_cases hlong : 4000 < request.content.length
  · rw [if_neg (by simpa [maxContentLength] using hlong)]
    simp [hlong]
  · rw [if_pos (by simpa [maxContentLength] using hlong), ← hiff]
    by_cases hblank : Text.isBlank request.content = true <;> simp [hlong, hblank]

theorem dispatch_of_notUuid (h : Uuid.parse? (Text.trim payload.roomId) = none) :
    (dispatch session (.sendMessage payload)).run =
      done (.error (.payload ("invalid roomId: " ++ payload.roomId))) := by
  simp only [dispatch, handleSend, Handler.requireUuid, h]
  rfl

/-- A blank text is not an identifier. -/
theorem Uuid.parse?_empty : Uuid.parse? "" = none := by decide

theorem dispatch_of_roomless (session : Session) (h : Text.trim command.room = "") :
    ∃ failure, (dispatch session command).run = done (.error failure) := by
  have hkey := roomKey_eq_none_iff.mpr (Text.trim_eq_empty_iff.mp h)
  cases command with
  | sendMessage payload => exact ⟨_, dispatch_of_notUuid (h ▸ Uuid.parse?_empty)⟩
  | joinRoom raw | leaveRoom raw | typing raw =>
    refine ⟨.payload "roomId is required", ?_⟩
    simp only [Command.room] at hkey
    simp only [dispatch, handleTyping, Handler.requireRoom, hkey]
    rfl

/-- What comes of a message that is not refused for a room that exists. -/
theorem Gateway.delivery_of_accepted (session : Session) {roomId : Uuid} {room : Room}
    {message : Message}
    (accepted :
      SendMessage.refusal? ⟨roomId, payload.content, payload.kind, payload.metadata⟩ = none)
    (known : g.rooms.get? roomId = some room)
    (hmessage : message = g.nextMessage session roomId payload) :
    g.delivery session.userId ⟨roomId, payload.content, payload.kind, payload.metadata⟩ =
      .ok (message,
        { g with
          hub := (g.hub.broadcast (messageEnvelope message)).2
          messages := g.messages.append message
          rooms := g.rooms.touch roomId (g.supply.times (g.supply.readings + 1))
          supply := { g.supply with
            issued := g.supply.issued + 1
            readings := g.supply.readings + 2 }
          notes := List.replicate (g.hub.broadcast (messageEnvelope message)).1.overflowed
            .queueOverflow ++ g.notes }) := by
  subst hmessage
  simp only [delivery, accepted, known, touch, createMessage, Supply.freshId, Supply.stamp,
    Message.ofDraft, SendMessage.draft, step]
  rfl

/-- A message that is for a room named by an identifier is sent, or refused. -/
theorem run_dispatch_send {roomId : Uuid}
    (named : Uuid.parse? (Text.trim payload.roomId) = some roomId) :
    (dispatch session (.sendMessage payload)).run.run g =
      match g.delivery session.userId
        ⟨roomId, payload.content, payload.kind, payload.metadata⟩ with
      | .ok (_, g') => (.ok (), { g' with notes := .messageBroadcast :: g'.notes })
      | .error reason => (.error (.service reason), g) := by
  obtain ⟨message, g', hok, hrun, -⟩ | ⟨reason, herror, hrun, -⟩ := run_dispatch_sendMessage
    (g := g) session ⟨roomId, payload.content, payload.kind, payload.metadata⟩ payload named rfl
  · rw [hrun, hok]
  · rw [hrun, herror]

/-- A message that breaks its limits, or is for a room that does not exist, is refused. -/
theorem dispatch_of_undelivered (h : ∀ roomId,
    Uuid.parse? (Text.trim payload.roomId) = some roomId →
    SendMessage.refusal? ⟨roomId, payload.content, payload.kind, payload.metadata⟩ ≠ none ∨
      g.rooms.get? roomId = none) :
    ∃ failure, (dispatch session (.sendMessage payload)).run.run g = (.error failure, g) := by
  cases named : Uuid.parse? (Text.trim payload.roomId) with
  | none => exact ⟨_, by rw [dispatch_of_notUuid named, run_done]⟩
  | some roomId =>
    have hrefused : ∃ reason, g.delivery session.userId
        ⟨roomId, payload.content, payload.kind, payload.metadata⟩ = .error reason := by
      unfold Gateway.delivery
      rcases h roomId named with hrefusal | habsent
      · obtain ⟨reason, hreason⟩ := Option.ne_none_iff_exists'.mp hrefusal
        exact ⟨reason, by simp only [hreason]⟩
      · simp only [habsent]
        split
        · exact ⟨_, rfl⟩
        · exact ⟨_, rfl⟩
        · rename_i hsome
          cases hsome
    obtain ⟨reason, hreason⟩ := hrefused
    exact ⟨.service reason, by rw [run_dispatch_send named, hreason]⟩

/-- A command that is refused fails, and nothing has changed. -/
theorem dispatch_of_declines (session : Session) (h : g.Declines command) :
    ∃ failure, (dispatch session command).run.run g = (.error failure, g) := by
  cases h with
  | roomless blank =>
    obtain ⟨failure, hrun⟩ := dispatch_of_roomless session blank
    exact ⟨failure, by rw [hrun, run_done]⟩
  | notUuid noUuid => exact ⟨_, by rw [dispatch_of_notUuid noUuid, run_done]⟩
  | tooLong long =>
    refine dispatch_of_undelivered fun roomId _ => .inl ?_
    rw [ne_eq, SendMessage.refusal?_eq_none_iff]
    exact fun hnone => hnone.1 long
  | empty blank =>
    refine dispatch_of_undelivered fun roomId _ => .inl ?_
    rw [ne_eq, SendMessage.refusal?_eq_none_iff]
    exact fun hnone => hnone.2 blank
  | unknownRoom named absent =>
    refine dispatch_of_undelivered fun other hother => .inr ?_
    rw [← Option.some_inj.mp (named.symm.trans hother)]
    exact absent

/-- A command that is not refused is applied. -/
theorem dispatch_of_not_declines (session : Session) (h : ¬ g.Declines command) :
    ∃ g', (dispatch session command).run.run g = (.ok (), g') ∧ g.Applies session command g' := by
  have hroom : roomKey command.room ≠ none := fun hnone =>
    h (.roomless (Text.trim_eq_empty_iff.mpr (roomKey_eq_none_iff.mp hnone)))
  obtain ⟨key, hkey⟩ := Option.ne_none_iff_exists'.mp hroom
  cases command with
  | joinRoom raw =>
    have hrun : (dispatch session (.joinRoom raw)).run = _ := dispatch_joinRoom hkey
    exact ⟨_, congrArg (Routine.run · g) hrun, .join hkey⟩
  | leaveRoom raw =>
    have hrun : (dispatch session (.leaveRoom raw)).run = _ := dispatch_leaveRoom hkey
    exact ⟨_, congrArg (Routine.run · g) hrun, .leave hkey⟩
  | typing raw isTyping =>
    obtain ⟨notes, hrun⟩ := run_dispatch_typing (g := g) session hkey isTyping
    exact ⟨_, hrun, .typing hkey⟩
  | sendMessage payload =>
    have hnamed : Uuid.parse? (Text.trim payload.roomId) ≠ none := fun hnone =>
      h (.notUuid hnone)
    obtain ⟨roomId, named⟩ := Option.ne_none_iff_exists'.mp hnamed
    have hknown : g.rooms.get? roomId ≠ none := fun habsent => h (.unknownRoom named habsent)
    obtain ⟨room, known⟩ := Option.ne_none_iff_exists'.mp hknown
    have accepted : SendMessage.refusal?
        ⟨roomId, payload.content, payload.kind, payload.metadata⟩ = none :=
      SendMessage.refusal?_eq_none_iff.mpr
        ⟨fun long => h (.tooLong long), fun blank => h (.empty blank)⟩
    have hdelivery := Gateway.delivery_of_accepted session accepted known rfl
    exact ⟨_, by rw [run_dispatch_send named, hdelivery], .send named⟩

/-! ### Texts -/

/-- Of a text that is refused no more than a note remains. -/
theorem run_handleText_of_refuses {text : String} (h : g.Refuses session text) :
    ∃ notes, (handleText session text).run g = ((), { g with notes }) := by
  by_cases hclosed : g.hub.isClosed session.id = true
  · refine ⟨g.notes, ?_⟩
    rw [handleText, run_bind]
    simp only [ask, run_call, run_done, Gateway.step, hclosed, if_true, pure_eq]
  · cases h with
    | closed closed => exact absurd closed hclosed
    | garbled parsed =>
      refine ⟨.frameDiscarded :: g.notes, ?_⟩
      rw [handleText, run_bind]
      simp only [ask, run_call, run_done, Gateway.step, hclosed, parsed]
      rfl
    | declined parsed declines =>
      obtain ⟨failure, hrun⟩ := dispatch_of_declines session declines
      rw [(run_handleText (Bool.eq_false_iff.mpr hclosed) parsed).1, run_bind, hrun]
      exact ⟨_, rfl⟩

/-- **A text is acted upon as a whole or not at all.** Take any gateway, any session and any text.
If the text is refused, nothing has changed but for the notes. If it is not, it spells a command
that is applied to the end. A command never fails once it has changed anything. -/
theorem text_refused_or_applied (g : Gateway) (session : Session) (text : String) :
    (g.Refuses session text →
      ∃ notes, (handleText session text).run g = ((), { g with notes })) ∧
    (¬ g.Refuses session text → ∃ command, Command.parse text = .ok command ∧
      ((dispatch session command).run.run g).1 = .ok () ∧
      g.Applies session command ((handleText session text).run g).2) ∧
    ∀ (command : Command) (failure : CommandFailure) (g' : Gateway),
      (dispatch session command).run.run g = (.error failure, g') → g' = g := by
  refine ⟨fun h => ?_, fun h => ?_, fun command failure g' hrun => ?_⟩
  · exact run_handleText_of_refuses h
  · have hopen : g.hub.isClosed session.id = false :=
      Bool.eq_false_iff.mpr fun hclosed => h (.closed hclosed)
    cases hparse : Command.parse text with
    | error fault => exact absurd (.garbled hparse) h
    | ok command =>
      obtain ⟨g', hrun, happlies⟩ := dispatch_of_not_declines session
        fun hdeclines => h (.declined hparse hdeclines)
      refine ⟨command, rfl, by rw [hrun], ?_⟩
      rw [(run_handleText hopen hparse).1, run_bind, hrun]
      exact happlies
  · by_cases hdeclines : g.Declines command
    · obtain ⟨_, hfails⟩ := dispatch_of_declines session hdeclines
      exact (Prod.mk.inj (hrun.symm.trans hfails)).2
    · obtain ⟨_, hsucceeds, -⟩ := dispatch_of_not_declines session hdeclines
      cases (Prod.mk.inj (hrun.symm.trans hsucceeds)).1

/-- The greeting of a guest is acted upon, and an empty document is not. -/
theorem greeting_applied_and_empty_refused :
    (¬ parlour.Refuses guest spoken ∧ ∃ command, Command.parse spoken = .ok command ∧
      parlour.Applies guest command ((handleText guest spoken).run parlour).2) ∧
    (parlour.Refuses guest "\x7b\x7d" ∧
      ∃ notes, (handleText guest "\x7b\x7d").run parlour = ((), { parlour with notes })) := by
  have hspoken : Command.parse spoken = .ok (.sendMessage ⟨parlourSpoken, "hi", .text, none⟩) :=
    Command.ok_of_toOption (by decide +kernel)
  have hnamed : Uuid.parse? (Text.trim parlourSpoken) = some parlourId := by decide +kernel
  have haccepted : ¬ parlour.Refuses guest spoken := by
    intro h
    cases h with
    | closed closed => exact absurd closed (by decide)
    | garbled parsed => cases hspoken.symm.trans parsed
    | declined parsed declines =>
      obtain rfl := Except.ok.inj (hspoken.symm.trans parsed)
      cases declines with
      | roomless blank =>
        have hnone : Uuid.parse? (Text.trim parlourSpoken) = none :=
          (congrArg Uuid.parse? blank).trans Uuid.parse?_empty
        cases hnamed.symm.trans hnone
      | notUuid noUuid => cases hnamed.symm.trans noUuid
      | tooLong long => exact absurd long (by decide)
      | empty blank => exact absurd (blank 'h' (by decide)) (by decide)
      | unknownRoom named absent =>
        obtain rfl := Option.some_inj.mp (hnamed.symm.trans named)
        cases absent
  have hrefused : parlour.Refuses guest "\x7b\x7d" := by
    cases hparse : Command.parse "\x7b\x7d" with
    | error fault => exact .garbled hparse
    | ok command =>
      have hnone : (Command.parse "\x7b\x7d").toOption = none := by decide +kernel
      rw [hparse] at hnone
      cases hnone
  obtain ⟨command, hparse, -, happlies⟩ :=
    (text_refused_or_applied parlour guest spoken).2.1 haccepted
  exact ⟨⟨haccepted, command, hparse, happlies⟩, hrefused,
    (text_refused_or_applied parlour guest "\x7b\x7d").1 hrefused⟩

end RoomRelay
