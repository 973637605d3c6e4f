import RoomRelay.Proofs.Gateway.Sending
import RoomRelay.Proofs.Hub.Fanout
import RoomRelay.Proofs.Presence.Typing
import RoomRelay.Proofs.Protocol.RoomKeys

/-!
# Every spelling of a room meets in one member set

A room whose name is an identifier can be named in many ways. Joining and leaving it, typing in it,
asking who types there, and sending to it over a socket or through the endpoint each read the name
on their own. All of them come to the same key, so it does not matter which spelling is used where.

## Main definitions

* `Uuid.NamedBy` — a text names a room by its identifier
* `Gateway.Relays` — a message was stored and a session was sent its frame, once
* `Gateway.Meets` — whatever spelling is used, a session hears of a room

## Main results

* `spellings_meet` — a session that has joined a room under one spelling hears of all others
-/

namespace RoomRelay

open Routine

variable {g g' : Gateway} {session : Session} {u : Uuid} {raw key : String} {id : SessionId}

/-- A text names a room by its identifier: without the blanks around it, it is one of the spellings
of the identifier. -/
def Uuid.NamedBy (u : Uuid) (raw : String) : Prop := Uuid.parse? (Text.trim raw) = some u

theorem Uuid.NamedBy.roomKey_eq (h : u.NamedBy raw) : roomKey raw = some u.toString :=
  roomKey_of_spells (Uuid.parse?_eq_some_iff.mp h)

/-! ### Commands about a room -/

theorem dispatch_joinRoom (h : roomKey raw = some key) :
    (dispatch session (.joinRoom raw)).run =
      .call (.join session.id key) fun _ => .call (.note .roomJoined) fun _ => done (.ok ()) := by
  simp only [dispatch, Handler.requireRoom, h]
  rfl

theorem dispatch_leaveRoom (h : roomKey raw = some key) :
    (dispatch session (.leaveRoom raw)).run =
      .call (.leave session.id key) fun _ => .call (.note .roomLeft) fun _ => done (.ok ()) := by
  simp only [dispatch, Handler.requireRoom, h]
  rfl

/-- What is asked of the presence store when an identity starts to type or stops. -/
def typingMark (key userId : String) (isTyping : Bool) : PresenceCall :=
  if isTyping then .addTyping key userId else .removeTyping key userId

/-- The marker is changed if that is possible, and the room is told. -/
theorem run_handleTyping (h : roomKey raw = some key) (isTyping : Bool) :
    (handleTyping session raw isTyping).run =
      .call (.presence (typingMark key session.userId isTyping)) fun reply =>
        (if reply.isOk then done () else note .typingMarkerFailed) >>= fun _ =>
          broadcast (typingEnvelope session key isTyping) >>= fun _ => done (.ok ()) := by
  have htell : (Functor.discard (Handler.perform
      (broadcast (typingEnvelope session key isTyping))) : Handler Unit).run = _ :=
    run_discard_lift (broadcast (typingEnvelope session key isTyping))
  simp only [handleTyping, Handler.requireRoom, h]
  cases isTyping with
  | false | true =>
    refine congrArg (call _) (funext fun reply => ?_)
    cases reply with
    | ok _ => exact htell
    | error _ => exact congrArg (call _) (funext fun _ => htell)

theorem run_dispatch_typing (session : Session) (h : roomKey raw = some key) (isTyping : Bool) :
    ∃ notes, (dispatch session (.typing raw isTyping)).run.run g =
      (.ok (), { g with
        hub := (g.hub.broadcast (typingEnvelope session key isTyping)).2
        presence := (g.presence.answer g.elapsed (typingMark key session.userId isTyping)).2
        notes := notes }) := by
  rw [dispatch, run_handleTyping h]
  refine ⟨List.replicate (g.hub.broadcast (typingEnvelope session key isTyping)).1.overflowed
    .queueOverflow ++ g.notes, ?_⟩
  simp only [broadcast, ask, run_call, run_bind, Gateway.step, Gateway.mark, Except.isOk,
    Except.toBool, if_true, run_done, run_noteTimes, pure_eq]

/-! ### Requests about a room -/

namespace App

variable {app : App} {r : HttpRequest} {part userId : String}

/-- Who types in a room is told under the room's key. -/
theorem run_answer_listTyping (action : action? r = some (.listTyping part))
    (spells : Percent.text? part = some raw) (named : roomKey raw = some key)
    (vouches : app.Vouches g r userId) :
    ((app.answer r).run g).1 =
      shown r (.json 200 (typingDocument key (g.presence.listTyping g.elapsed key).1)) := by
  have hpart : Endpoint.part "room_id" part = pure raw := by rw [Endpoint.part, spells]
  have hendpoint : ((app.endpoint r (.listTyping part)).run.run g).1 =
      .ok (.json 200 (typingDocument key (g.presence.listTyping g.elapsed key).1)) := by
    change ((app.listTyping part r).run.run g).1 = _
    rw [listTyping,
      run_bind_of_ok (run_discard_of_ok (Endpoint.run_authenticate_of_vouches vouches)), hpart,
      pure_bind, named]
    rfl
  rw [answer_eq app action, run_bind, hendpoint]
  rfl

/-- A message is accepted only from a caller with a valid token. -/
theorem vouches_of_created (action : action? r = some .sendMessage)
    (created : ((app.answer r).run g).1.status = 201) : ∃ userId, app.Vouches g r userId := by
  -- Without one the endpoint ends with a failure, which is not told as a success.
  have hrefused : ∀ failure, (app.endpoint r .sendMessage).run.run g =
      (.error (.failure failure), g) → False := by
    intro failure hrun
    rw [answer_eq app action, run_bind, hrun] at created
    exact failure.status_ne_created created
  have hsend : (app.endpoint r .sendMessage).run = (app.sendMessage r).run := rfl
  rw [hsend, run_sendMessage] at hrefused
  cases htoken : r.bearer? with
  | none =>
    rw [htoken] at hrefused
    exact (hrefused .noCredentials rfl).elim
  | some token =>
    cases hverify : app.tokens.verify token g.supply.now.seconds with
    | ok userId => exact ⟨userId, token, htoken, hverify⟩
    | error failure =>
      refine (hrefused (.app failure) ?_).elim
      rw [htoken, Option.elim_some, run_call]
      have hidentity : app.tokens.identity token g.supply.now =
          .error (.failure (.app failure)) := by
        rw [TokenConfig.identity, hverify]
        rfl
      simp only [Gateway.step, hidentity]
      rfl

end App

/-! ### What a session hears of a room -/

/-- A broadcast puts its frame into the queue of every member that has space, once. -/
theorem Hub.queue_broadcast {hub : Hub} {envelope : Envelope} (hi : hub.registry.Indexed)
    (haddr : envelope.Addresses hub id) (space : (hub.mailbox id).fault? = none) :
    ((hub.broadcast envelope).2.mailbox id).queue =
      (hub.mailbox id).queue ++ [envelope.frame] := by
  cases offered_of_addresses hi (.refl _) haddr with
  | delivered _ _ hmailbox => exact congrArg Mailbox.queue hmailbox
  | overflowed hfull => exact absurd (space.symm.trans hfull) (by simp)
  | unreachable hclosed => exact absurd (space.symm.trans hclosed) (by simp)

namespace Gateway

/-- A message was stored for a draft, and a session's queue has taken its frame once. -/
def Relays (g g' : Gateway) (draft : MessageDraft) (id : SessionId) : Prop :=
  ∃ freshId now, g'.messages = g.messages.append (.ofDraft draft freshId now) ∧
    (g'.hub.mailbox id).queue = (g.hub.mailbox id).queue ++
      [(Event.newMessage (.ofDraft draft freshId now)).frame]

/-- Whoever asks who types in a room, under any spelling of it, is told these identities. -/
def ListsTyping (g : Gateway) (u : Uuid) (userIds : List String) : Prop :=
  ∀ (app : App) (r : HttpRequest) (part raw viewer : String),
    App.action? r = some (.listTyping part) → Percent.text? part = some raw → u.NamedBy raw →
    app.Vouches g r viewer →
    ((app.answer r).run g).1 = App.shown r (.json 200 (typingDocument u.toString userIds))

/-- Whatever spelling of a room is used, a session hears of the room, those who type there are
listed, and the session can leave. -/
structure Meets (g : Gateway) (session : Session) (u : Uuid) : Prop where
  /-- A message that is accepted over a socket comes to the session. -/
  command : (g.hub.mailbox session.id).fault? = none → ∀ (sender : Session) (payload : SendPayload),
    u.NamedBy payload.roomId → ((dispatch sender (.sendMessage payload)).run.run g).1 = .ok () →
    g.Relays ((dispatch sender (.sendMessage payload)).run.run g).2
      ⟨u, sender.userId, payload.content, payload.kind, payload.metadata⟩ session.id
  /-- So does one that is accepted by the endpoint. -/
  request : (g.hub.mailbox session.id).fault? = none →
    ∀ (app : App) (r : HttpRequest) (request : SendMessage), request.PostedBy r →
    request.roomId = u → ((app.answer r).run g).1.status = 201 →
    ∃ userId, app.Vouches g r userId ∧
      g.Relays ((app.answer r).run g).2 (request.draft userId) session.id
  /-- The session is told when another one starts to type or stops. -/
  typing : (g.hub.mailbox session.id).fault? = none →
    ∀ (other : Session) (raw : String) (isTyping : Bool), other.id ≠ session.id → u.NamedBy raw →
    ((((dispatch other (.typing raw isTyping)).run.run g).2.hub).mailbox session.id).queue =
      (g.hub.mailbox session.id).queue ++
        [(Event.userTyping u.toString other.userId isTyping).frame]
  /-- Whoever has started to type is listed until the lifetime of the set has passed, unless it has
  stopped. -/
  listing : ∀ (other : Session) (raw : String), u.NamedBy raw →
    ∀ (calls : List (Nat × PresenceCall)) (g' : Gateway),
    g'.presence = ((dispatch other (.typing raw true)).run.run g).2.presence.afterCalls calls →
    (∀ call ∈ calls, g.elapsed ≤ call.1 ∧ call.1 < g.elapsed + g.presence.lifetime ∧
      call.2 ≠ .removeTyping u.toString other.userId) →
    g.elapsed ≤ g'.elapsed → g'.elapsed < g.elapsed + g.presence.lifetime →
    ∃ userIds, other.userId ∈ userIds ∧ g'.ListsTyping u userIds
  /-- Whoever has stopped is not listed. -/
  stopping : ∀ (other : Session) (raw : String), u.NamedBy raw → ∀ g' : Gateway,
    g'.presence = ((dispatch other (.typing raw false)).run.run g).2.presence →
    ∃ userIds, other.userId ∉ userIds ∧ g'.ListsTyping u userIds
  /-- Leaving takes the session out of the room, and changes no other membership. -/
  leaving : ∀ raw, u.NamedBy raw → ((dispatch session (.leaveRoom raw)).run.run g).1 = .ok () ∧
    ∀ id key, id ∈ (((dispatch session (.leaveRoom raw)).run.run g).2.hub).registry.memberIds key ↔
      id ∈ g.hub.registry.memberIds key ∧ ¬ (id = session.id ∧ key = u.toString)

/-- The stored message is broadcast to its room, and so comes to every member with space. -/
theorem relays_of_delivery {senderId : String} {request : SendMessage} {message : Message}
    (hi : g.hub.registry.Indexed) (member : id ∈ g.hub.registry.memberIds request.roomId.toString)
    (space : (g.hub.mailbox id).fault? = none)
    (h : g.delivery senderId request = .ok (message, g')) :
    g.Relays g' (request.draft senderId) id := by
  obtain ⟨freshId, now, rfl, hmessages, hhub⟩ := of_delivery h
  refine ⟨freshId, now, hmessages, ?_⟩
  rw [hhub]
  exact Hub.queue_broadcast hi ⟨member, by simp [messageEnvelope]⟩ space

theorem listsTyping (g : Gateway) (u : Uuid) :
    g.ListsTyping u (g.presence.listTyping g.elapsed u.toString).1 :=
  fun _ _ _ _ _ action spells named vouches =>
    App.run_answer_listTyping action spells named.roomKey_eq vouches

theorem meets_of_member (hi : g.hub.registry.Indexed)
    (member : session.id ∈ g.hub.registry.memberIds u.toString) : g.Meets session u where
  command := by
    intro space sender payload named accepted
    obtain ⟨message, g', hok, hrun, -⟩ | ⟨reason, -, hrun, -⟩ := run_dispatch_sendMessage (g := g)
      sender ⟨u, payload.content, payload.kind, payload.metadata⟩ payload named rfl
    · rw [hrun]
      refine relays_of_delivery hi ?_ space hok
      exact member
    · rw [hrun] at accepted
      cases accepted
  request := by
    rintro space app r request posted rfl created
    obtain ⟨userId, vouches⟩ := App.vouches_of_created posted.action created
    refine ⟨userId, vouches, ?_⟩
    obtain ⟨message, g', hok, hrun, -⟩ | ⟨reason, failure, -, hrun, -⟩ :=
      App.run_answer_of_postedBy posted vouches
    · rw [hrun]
      exact relays_of_delivery hi member space hok
    · rw [hrun] at created
      exact absurd created failure.status_ne_created
  typing := by
    intro space other raw isTyping hne named
    obtain ⟨_, hrun⟩ := run_dispatch_typing (g := g) other named.roomKey_eq isTyping
    rw [hrun]
    exact Hub.queue_broadcast hi ⟨member, by simpa [typingEnvelope] using hne⟩ space
  listing := by
    intro other raw named calls g' hpresence within later fresh
    obtain ⟨notes, hrun⟩ := run_dispatch_typing (g := g) other named.roomKey_eq true
    rw [hrun] at hpresence
    -- The marker has just been set, and nothing that came since has ended that.
    have htypes : (g.presence.addTyping g.elapsed u.toString other.userId).Types g.elapsed
        u.toString other.userId := PresenceMemory.types_addTyping
    have hlasting := htypes.afterCalls within
    have hlifetime : g'.presence.lifetime = g.presence.lifetime := by
      rw [hpresence, PresenceMemory.lifetime_afterCalls]
      rfl
    rw [← hlifetime] at fresh
    refine ⟨_, ?_, g'.listsTyping u⟩
    rw [hpresence] at fresh ⊢
    exact hlasting.mem_listTyping later fresh
  stopping := by
    intro other raw named g' hpresence
    obtain ⟨notes, hrun⟩ := run_dispatch_typing (g := g) other named.roomKey_eq false
    rw [hrun] at hpresence
    refine ⟨_, ?_, g'.listsTyping u⟩
    rw [hpresence]
    exact PresenceMemory.not_mem_listTyping_removeTyping
  leaving := by
    intro raw named
    have hjoined : g.hub.registry.HasJoined session.id u.toString :=
      hi.isMember_iff.mp (Registry.mem_memberIds.mp member)
    rw [dispatch_leaveRoom named.roomKey_eq]
    refine ⟨rfl, fun id key => ?_⟩
    rw [Registry.mem_memberIds, Registry.mem_memberIds]
    exact Registry.isMember_leave.trans (and_congr_right fun _ => not_congr (and_iff_right hjoined))

end Gateway

/-- **All spellings meet.** Take any gateway whose hub was reached from an empty registry, and any
session that is registered. If the session joins a room under any spelling, it becomes a member of
the room, no other membership changes, and no queue. From then on, whatever happens to the hub, as
long as the session has not been taken out of the room: whatever spelling is used, it hears of the
room, once, if its queue has space, those who type there are listed, and the session can leave. -/
theorem spellings_meet {origin : Hub} {past : List (Moment Hub Hub.Act)}
    (run : Hub.Run origin past g.hub) (empty : origin.registry = {})
    (registered : g.hub.registry.contains session.id = true) (named : u.NamedBy raw) :
    ∃ joined, (dispatch session (.joinRoom raw)).run.run g = (.ok (), joined) ∧
      (∀ id key, id ∈ joined.hub.registry.memberIds key ↔
        id ∈ g.hub.registry.memberIds key ∨ (id = session.id ∧ key = u.toString)) ∧
      (∀ id, joined.hub.mailbox id = g.hub.mailbox id) ∧
      ∀ (later : List (Moment Hub Hub.Act)) (g' : Gateway), Hub.Run joined.hub later g'.hub →
        (∀ m ∈ later, session.id ∈ m.after.registry.memberIds u.toString) → g'.Meets session u := by
  have hi : g.hub.registry.Indexed := by
    refine run.indexed ?_
    rw [empty]
    exact Registry.indexed_empty
  have hmembers : ∀ id key, id ∈ (g.hub.join session.id u.toString).2.registry.memberIds key ↔
      id ∈ g.hub.registry.memberIds key ∨ (id = session.id ∧ key = u.toString) := by
    intro id key
    rw [Registry.mem_memberIds, Registry.mem_memberIds]
    exact Registry.isMember_join.trans (or_congr_right (and_iff_right registered))
  rw [dispatch_joinRoom named.roomKey_eq]
  refine ⟨_, rfl, hmembers, fun _ => rfl, ?_⟩
  intro later g' more stays
  have hi' : g'.hub.registry.Indexed := by
    refine more.indexed ?_
    exact Hub.Step.join.indexed hi
  refine Gateway.meets_of_member hi' ?_
  -- At the end the session is a member as it was behind the last moment, or behind the join.
  generalize g'.hub = hub at more
  cases more with
  | nil => exact (hmembers _ _).mpr (Or.inr ⟨rfl, rfl⟩)
  | snoc _ _ => exact stays _ (List.mem_append_right _ (List.mem_singleton_self _))

/-- The parlour with the guest registered. -/
def salon : Gateway := { parlour with hub := (parlour.hub.play [.enroll guest]).2 }

/-- The room as a third one names it, without hyphens and on a line of its own. -/
def parlourPlain : String := "00000000000040008000000000000007\n"

/-- The guest joins the room with blanks around its name. It is told when a host who names it in
another way types and sends, and can leave under a third name. -/
theorem spellings_meet_of_salon :
    ∃ joined, (dispatch guest (.joinRoom parlourSpoken)).run.run salon = (.ok (), joined) ∧
      (((dispatch ⟨.version4 2, "bob"⟩ (.typing parlourWritten true)).run.run joined).2.hub.mailbox
        guest.id).queue = [(Event.userTyping parlourId.toString "bob" true).frame] ∧
      joined.Relays ((dispatch ⟨.version4 2, "bob"⟩
        (.sendMessage ⟨parlourWritten, "hi", .text, none⟩)).run.run joined).2
        ⟨parlourId, "bob", "hi", .text, none⟩ guest.id ∧
      guest.id ∉ ((dispatch guest (.leaveRoom parlourPlain)).run.run
        joined).2.hub.registry.memberIds parlourId.toString := by
  have hspoken : parlourId.NamedBy parlourSpoken := by
    unfold Uuid.NamedBy
    decide +kernel
  have hwritten : parlourId.NamedBy parlourWritten := by
    unfold Uuid.NamedBy
    decide +kernel
  have hplain : parlourId.NamedBy parlourPlain := by
    unfold Uuid.NamedBy
    decide +kernel
  have hrun : Hub.Run parlour.hub (parlour.hub.play [.enroll guest]).1 salon.hub :=
    Hub.Run.of_play _
  obtain ⟨joined, hjoin, -, hqueues, hmeets⟩ :=
    @spellings_meet salon guest parlourId parlourSpoken _ _ hrun rfl (by decide) hspoken
  have hmeet := hmeets [] joined .nil (by simp)
  have hspace : (joined.hub.mailbox guest.id).fault? = none := by
    rw [hqueues]
    decide
  refine ⟨joined, hjoin, ?_, ?_, ?_⟩
  · rw [hmeet.typing hspace _ _ _ (by decide) hwritten, hqueues]
    rfl
  · refine hmeet.command hspace _ _ hwritten ?_
    have hrooms : joined.rooms = parlour.rooms := by
      rw [dispatch_joinRoom hspoken.roomKey_eq] at hjoin
      rw [← (Prod.mk.inj hjoin).2]
      rfl
    have hrefusal : greeting.refusal? = none := by decide +kernel
    obtain ⟨_, _, -, hsent, -⟩ | ⟨reason, herror, -⟩ := run_dispatch_sendMessage (g := joined)
      ⟨.version4 2, "bob"⟩ greeting ⟨parlourWritten, "hi", .text, none⟩ hwritten rfl
    · rw [hsent]
    · refine absurd herror (Gateway.delivery_ne_error hrefusal ?_ reason)
      rw [hrooms]
      rfl
  · rw [(hmeet.leaving _ hplain).2]
    simp

end RoomRelay
