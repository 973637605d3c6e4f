import RoomRelay.Proofs.Gateway.Relay

/-!
# What rooms are told of messages

In every run of a gateway with its work the frames about messages tell the truth: each is about a
message that is in the store by then, whoever is told of it is a member of the message's room, and
the sender is the identity for which the work was done. And they tell everything: each message in
the store was stored in the course of one piece of work, which tells the room just then, once, and
is accepted.

## Main definitions

* `IsMessageFrame` — a frame about a message
* `Relay.log`, `Relay.storings` — the transcript of one piece of work, and all messages stored
* `Relay.Accounted` — the invariant of runs

## Main results

* `Relay.Accounted.step` — every step is accounted for
* `Relay.Run.truthful` — frames about messages are truthful and complete
-/

namespace RoomRelay

open Routine

/-! ### Frames about messages -/

/-- The frame is about a message: this is what its type says, whatever its payload is. -/
def IsMessageFrame (frame : Frame) : Prop :=
  ∃ payload, frame =
    (Json.Value.object [("type", .string "new_message"), ("payload", payload)]).render

/-- A frame about someone who types is not about a message. -/
theorem not_isMessageFrame_userTyping {key userId : String} {isTyping : Bool} :
    ¬ IsMessageFrame (Event.userTyping key userId isTyping).frame := by
  rintro ⟨payload, h⟩
  have hchars := congrArg String.toList h
  simp [Event.frame, Event.document, Event.name, Json.Value.render, Json.Value.chars,
    Json.Value.fieldChars, Json.commas, Json.quoted, Json.escaped] at hchars

/-! ### Transcripts in runs -/

namespace Relay

/-- The exchange of a job that an event is. -/
def Event.exchange? (number : Nat) : Event → Option Exchange
  | call k exchange => if k = number then some exchange else none
  | _ => none

/-- The transcript of a job in a run. -/
def log (number : Nat) (past : List (Moment Relay Event)) : List Exchange :=
  past.filterMap fun m => m.event.exchange? number

/-- The message that an event stores, with the number of the job that does it. -/
def Event.stored? : Event → Option (Nat × Message)
  | call number exchange => exchange.stored?.map (number, ·)
  | _ => none

/-- The messages that are stored in a run, each with the number of the job that does it. -/
def storings (past : List (Moment Relay Event)) : List (Nat × Message) :=
  past.filterMap (·.event.stored?)

end Relay

/-! ### Messages in transcripts -/

theorem Exchange.stored?_eq_some_iff {e : Exchange} {message : Message} :
    e.stored? = some message ↔
      ∃ draft, e = ⟨.storage (.createMessage draft), .ok message⟩ := by
  constructor
  · intro h
    unfold stored? at h
    split at h
    · obtain rfl := Option.some.inj h
      exact ⟨_, rfl⟩
    · cases h
  · rintro ⟨draft, rfl⟩
    rfl

theorem Call.IsAside.stored?_eq_none {e : Exchange} (h : e.request.IsAside) :
    e.stored? = none := by
  rw [Option.eq_none_iff_forall_ne_some]
  intro message hstored
  obtain ⟨draft, rfl⟩ := Exchange.stored?_eq_some_iff.mp hstored
  obtain hsilent | ⟨_, _, _, heq⟩ := h
  · exact hsilent
  · cases heq

theorem Call.IsNote.stored?_eq_none {e : Exchange} (h : e.request.IsNote) : e.stored? = none := by
  rw [Option.eq_none_iff_forall_ne_some]
  intro message hstored
  obtain ⟨draft, rfl⟩ := Exchange.stored?_eq_some_iff.mp hstored
  exact h

namespace Sends

variable {draft : MessageDraft} {message : Message} {log : List Exchange}

theorem stored_eq (h : Sends draft message log) :
    log.filterMap Exchange.stored? = [message] := by
  obtain ⟨hlooked, hnotes⟩ := h
  have hfront := List.filterMap_eq_nil_iff.mpr fun e he => (hlooked e he).isAside.stored?_eq_none
  have hback := List.filterMap_eq_nil_iff.mpr fun e he => (hnotes e he).stored?_eq_none
  rw [List.filterMap_append, hfront]
  exact congrArg (message :: ·) hback

theorem envelope_eq (h : Sends draft message log) {envelope : Envelope}
    {report : BroadcastReport} (hmem : ⟨.broadcast envelope, report⟩ ∈ log) :
    envelope = messageEnvelope message := by
  obtain ⟨hlooked, hnotes⟩ := h
  simp only [List.mem_append, List.mem_cons, Exchange.mk.injEq, reduceCtorEq, false_and, false_or,
    Call.broadcast.injEq] at hmem
  obtain hmem | ⟨rfl, -⟩ | hmem := hmem
  · exact (hlooked _ hmem).elim
  · rfl
  · exact (hnotes _ hmem).elim

end Sends

namespace Relay

variable {app : App} {past : List (Moment Relay Event)} {m : Moment Relay Event} {number : Nat}
variable {message : Message} {t t' : Relay} {event : Event}

theorem log_snoc :
    log number (past ++ [m]) = log number past ++ (m.event.exchange? number).toList :=
  filterMap_snoc _ _ _

/-- A call comes to the end of the transcript of its job and to no other one. -/
theorem log_call {k : Nat} {exchange : Exchange} :
    log number (past ++ [⟨t, .call k exchange, t'⟩]) =
      log number past ++ if k = number then [exchange] else [] := by
  rw [log_snoc, Event.exchange?]
  split <;> rfl

theorem storings_snoc : storings (past ++ [m]) = storings past ++ m.event.stored?.toList :=
  filterMap_snoc _ _ _

/-- The messages that a job stores are those that its transcript stores. -/
theorem filter_storings : (storings past).filter (·.1 = number) =
    ((log number past).filterMap Exchange.stored?).map (number, ·) := by
  unfold storings log
  rw [List.filter_filterMap, List.filterMap_filterMap, List.map_filterMap]
  apply List.filterMap_congr
  intro m _
  cases m.event with
  | begin | drift => rfl
  | call k e =>
    by_cases hk : k = number
    · cases he : e.stored? <;> simp [Event.stored?, Event.exchange?, he, hk]
    · cases he : e.stored? <;> simp [Event.stored?, Event.exchange?, he, hk]

theorem mem_storings_iff : (number, message) ∈ storings past ↔
    message ∈ (log number past).filterMap Exchange.stored? := by
  have hmem : (number, message) ∈ storings past ↔
      (number, message) ∈ (storings past).filter (·.1 = number) := by simp
  rw [hmem, filter_storings]
  simp

theorem count_storings : ((storings past).map Prod.fst).count number =
    ((log number past).filterMap Exchange.stored?).length := by
  rw [← List.length_map (number, ·), ← filter_storings, ← List.countP_eq_length_filter, List.count,
    List.countP_map]
  congr 1

/-! ### Every step is accounted for -/

/-- What is known after a run: the transcripts are those of the jobs, all replies are genuine, and
the histories of the rooms hold the messages that were stored, in their order. -/
structure Accounted (app : App) (past : List (Moment Relay Event)) (t : Relay) : Prop where
  indexed : t.gateway.hub.registry.Indexed
  posting : ∀ job ∈ t.jobs, job.work.IsPosting
  follows : ∀ (number : Nat) (job : Job), t.jobs[number]? = some job →
    (job.work.routine app).Follows (log number past) job.rest
  unborn : ∀ number, t.jobs.length ≤ number → log number past = []
  genuine : ∀ number, ∀ e ∈ log number past, e.Genuine
  history : ∀ roomId, t.gateway.messages.history roomId =
    ((storings past).map Prod.snd).filter (·.roomId = roomId)

theorem getElem?_middle_of_ne {α : Type} {before after : List α} {x y : α} {n : Nat}
    (h : n ≠ before.length) : (before ++ x :: after)[n]? = (before ++ y :: after)[n]? := by
  rw [List.getElem?_append, List.getElem?_append]
  split
  · rfl
  · obtain ⟨k, hk⟩ : ∃ k, n - before.length = k + 1 := ⟨n - before.length - 1, by omega⟩
    rw [hk, List.getElem?_cons_succ, List.getElem?_cons_succ]

/-- An event that is no call is in no transcript. -/
theorem Accounted.of_uncalled (h : Accounted app past t)
    (hexchange : ∀ number, event.exchange? number = none) (hstored : event.stored? = none)
    (indexed : t'.gateway.hub.registry.Indexed)
    (messages : t'.gateway.messages = t.gateway.messages)
    (posting : ∀ job ∈ t'.jobs, job.work.IsPosting)
    (follows : ∀ (number : Nat) (job : Job), t'.jobs[number]? = some job →
      t.jobs[number]? = some job ∨ (t.jobs.length ≤ number ∧ job.rest = job.work.routine app))
    (longer : t.jobs.length ≤ t'.jobs.length) :
    Accounted app (past ++ [⟨t, event, t'⟩]) t' := by
  have hlog : ∀ number, log number (past ++ [⟨t, event, t'⟩]) = log number past := by
    intro number
    rw [log_snoc, hexchange number]
    exact List.append_nil _
  have hstorings : storings (past ++ [⟨t, event, t'⟩]) = storings past := by
    rw [storings_snoc, hstored]
    exact List.append_nil _
  constructor
  case indexed => exact indexed
  case posting => exact posting
  case follows =>
    intro number job hjob
    rw [hlog]
    obtain hold | ⟨hlen, hrest⟩ := follows number job hjob
    · exact h.follows number job hold
    · rw [h.unborn number hlen, hrest]
      exact .refl _
  case unborn =>
    intro number hlen
    rw [hlog]
    exact h.unborn number (longer.trans hlen)
  case genuine =>
    intro number
    rw [hlog]
    exact h.genuine number
  case history =>
    intro roomId
    rw [hstorings, messages]
    exact h.history roomId

/-- A call comes to the end of the transcript of its job, and what it stores comes to the history of
its room. -/
theorem Accounted.call {g g' : Gateway} {before after : List Job} {work : Work} {request : Call}
    {next : request.Reply → Routine work.Result} {reply : request.Reply}
    (h : Accounted app past ⟨g, before ++ ⟨work, .call request next⟩ :: after⟩)
    (answers : g.Answers request reply g') :
    Accounted app (past ++ [⟨⟨g, before ++ ⟨work, .call request next⟩ :: after⟩,
      .call before.length ⟨request, reply⟩, ⟨g', before ++ ⟨work, next reply⟩ :: after⟩⟩])
      ⟨g', before ++ ⟨work, next reply⟩ :: after⟩ := by
  have hself : (before ++ ⟨work, .call request next⟩ :: after)[before.length]? =
      some ⟨work, .call request next⟩ := by simp
  constructor
  case indexed => exact answers.indexed h.indexed
  case posting =>
    intro job hjob
    rw [List.mem_append, List.mem_cons] at hjob
    obtain hjob | rfl | hjob := hjob
    · exact h.posting job (List.mem_append_left _ hjob)
    · exact h.posting ⟨work, .call request next⟩ (List.mem_of_getElem? hself)
    · exact h.posting job (List.mem_append_right _ (List.mem_cons_of_mem _ hjob))
  case follows =>
    intro number job hjob
    rw [log_call]
    by_cases hnumber : before.length = number
    · subst hnumber
      obtain rfl : ⟨work, next reply⟩ = job := by simpa using hjob
      rw [if_pos rfl]
      exact (h.follows _ _ hself).snoc reply
    · rw [if_neg hnumber, List.append_nil]
      rw [getElem?_middle_of_ne (Ne.symm hnumber)] at hjob
      exact h.follows number job hjob
  case unborn =>
    intro number hlen
    have hne : before.length ≠ number := by
      rintro rfl
      simp only [List.length_append, List.length_cons] at hlen
      omega
    rw [log_call, if_neg hne, List.append_nil]
    refine h.unborn number ?_
    simpa using hlen
  case genuine =>
    intro number
    rw [log_call]
    refine List.forall_mem_append.mpr ⟨h.genuine number, ?_⟩
    split
    · exact List.forall_mem_singleton.mpr answers.genuine
    · exact List.forall_mem_nil _
  case history =>
    intro roomId
    rw [answers.messages_eq, storings_snoc, Event.stored?]
    cases hstored : Exchange.stored? ⟨request, reply⟩ with
    | none => simpa using h.history roomId
    | some message =>
      simp [MessageStore.history_append, h.history roomId, List.filter_singleton]

theorem Accounted.step (h : Accounted app past t) (step : Step app t event t') :
    Accounted app (past ++ [⟨t, event, t'⟩]) t' := by
  cases step with
  | begin posting =>
    refine h.of_uncalled (fun _ => rfl) rfl h.indexed rfl ?_ ?_ (by simp)
    · exact List.forall_mem_append.mpr ⟨h.posting, List.forall_mem_singleton.mpr posting⟩
    · intro number job hjob
      rw [List.getElem?_append] at hjob
      split at hjob
      · exact Or.inl hjob
      · rename_i hlen
        obtain rfl := List.mem_singleton.mp (List.mem_of_getElem? hjob)
        exact Or.inr ⟨Nat.le_of_not_lt hlen, rfl⟩
  | drift hub queues messages =>
    refine h.of_uncalled (fun _ => rfl) rfl ?_ messages h.posting (fun _ _ => Or.inl)
      (Nat.le_refl _)
    obtain heq | ⟨act, hstep⟩ := hub
    · exact heq ▸ h.indexed
    · exact hstep.indexed h.indexed
  | call answers => exact h.call answers

theorem Run.accounted {start : Relay} (run : Run app start past t)
    (nobody : start.gateway.hub.registry = {}) (nothing : start.gateway.messages = {})
    (idle : start.jobs = []) : Accounted app past t := by
  induction run with
  | nil =>
    refine ⟨?_, ?_, ?_, fun _ _ => rfl, ?_, ?_⟩
    · rw [nobody]
      exact Registry.indexed_empty
    · rw [idle]
      exact List.forall_mem_nil _
    · rw [idle]
      exact fun _ _ h => absurd h (by simp)
    · exact fun _ => List.forall_mem_nil _
    · rw [nothing]
      exact fun _ => rfl
  | snoc _ step ih => exact ih.step step

/-- What a job has done so far is dealt with in one of the two ways. -/
theorem Accounted.dealings (h : Accounted app past t) {job : Job}
    (hjob : t.jobs[number]? = some job) : job.work.Dealings app (log number past) job.rest :=
  Work.dealings (h.posting job (List.mem_of_getElem? hjob)) (h.follows number job hjob)
    (h.genuine number)

/-- A frame that a queue takes tells that someone types, or it is about a message that the job has
stored before, for a member of its room. -/
theorem Accounted.of_gained (h : Accounted app past m.before)
    (step : Step app m.before m.event m.after) {id : SessionId} {frame : Frame}
    (hframe : frame ∈ gained id m) :
    (∃ session key isTyping, frame = (typingEnvelope session key isTyping).frame) ∨
    ∃ number message report, m.event = .call number ⟨.broadcast (messageEnvelope message), report⟩ ∧
      frame = (RoomRelay.Event.newMessage message).frame ∧ (number, message) ∈ storings past ∧
      id ∈ m.before.gateway.hub.registry.memberIds message.roomId.toString := by
  have hafter := h.step step
  obtain ⟨t, event, t'⟩ := m
  dsimp only at h step hafter ⊢
  cases step with
  | begin => simp [gained] at hframe
  | drift _ queues =>
    rw [gained_eq_nil (queues id).length_le] at hframe
    exact absurd hframe List.not_mem_nil
  | @call g g' before after work request next reply answers =>
    -- No call but a broadcast makes a queue longer.
    by_cases hrequest : ∃ envelope, request = .broadcast envelope
    · obtain ⟨envelope, rfl⟩ := hrequest
      obtain ⟨rfl, hmember, -⟩ := answers.frame_of_broadcast h.indexed hframe
      have hjob : (before ++ ⟨work, next reply⟩ :: after)[before.length]? =
          some ⟨work, next reply⟩ := by simp
      have hdealings := hafter.dealings hjob
      rw [log_call, if_pos rfl] at hdealings
      -- The transcript of the job, with this call at its end, says what is broadcast.
      cases hdealings with
      | aside aside =>
        obtain hsilent | ⟨session, key, isTyping, heq⟩ :=
          aside ⟨.broadcast envelope, reply⟩ (by simp)
        · exact hsilent.elim
        · obtain rfl := Call.broadcast.inj heq
          exact Or.inl ⟨session, key, isTyping, rfl⟩
      | @sends draft message tail stored sends =>
        have hmem : ⟨.broadcast envelope, reply⟩ ∈
            log before.length past ++ [⟨.broadcast envelope, reply⟩] ++ tail := by simp
        obtain rfl := sends.envelope_eq hmem
        refine Or.inr ⟨_, message, reply, rfl, rfl, ?_, hmember⟩
        rw [mem_storings_iff, List.mem_filterMap]
        refine ⟨_, ?_, Exchange.stored?_eq_some_iff.mpr ⟨draft, rfl⟩⟩
        simpa using stored
    · have hqueue : (g'.hub.mailbox id).queue = (g.hub.mailbox id).queue :=
        answers.queue_eq fun envelope he => hrequest ⟨envelope, he⟩
      rw [gained_eq_nil (congrArg List.length hqueue).le] at hframe
      exact absurd hframe List.not_mem_nil

theorem Accounted.mem_history (h : Accounted app past t)
    (hstored : (number, message) ∈ storings past) :
    message ∈ t.gateway.messages.history message.roomId := by
  rw [h.history, List.mem_filter, decide_eq_true_eq]
  exact ⟨List.mem_map_of_mem hstored, rfl⟩

/-- The job that stores a message does nothing else: it was brought in the name of the sender, and
its transcript, which may not be at its end yet, is that of the message. -/
theorem Accounted.of_storing (h : Accounted app past t)
    (hstored : (number, message) ∈ storings past) :
    ∃ job draft tail, t.jobs[number]? = some job ∧
      job.work.Vouches app (log number past) message.senderId ∧
      Sends draft message (log number past ++ tail) ∧
      ∀ result, job.rest = done result →
        tail = [] ∧ job.work.Accepted (log number past) result := by
  rw [mem_storings_iff] at hstored
  have hlen : number < t.jobs.length := by
    by_contra hlen
    rw [h.unborn number (Nat.le_of_not_lt hlen)] at hstored
    exact List.not_mem_nil hstored
  have hjob := List.getElem?_eq_getElem hlen
  cases h.dealings hjob with
  | aside aside =>
    obtain ⟨e, he, hmessage⟩ := List.mem_filterMap.mp hstored
    rw [(aside e he).stored?_eq_none] at hmessage
    cases hmessage
  | @sends draft stored tail created sends vouched accepted =>
    -- No other message than the one that is sent can be stored.
    obtain rfl : message = stored := by
      have hall : message ∈ (log number past ++ tail).filterMap Exchange.stored? := by
        rw [List.filterMap_append]
        exact List.mem_append_left _ hstored
      rwa [sends.stored_eq, List.mem_singleton] at hall
    obtain ⟨id, now, hreply⟩ := h.genuine number _ created
    obtain rfl := Except.ok.inj hreply
    exact ⟨_, draft, tail, hjob, vouched, sends, accepted⟩

/-- No job stores two messages. -/
theorem Accounted.nodup (h : Accounted app past t) : ((storings past).map Prod.fst).Nodup := by
  rw [List.nodup_iff_count_le_one]
  intro number
  by_contra hcount
  obtain ⟨stored, hmem⟩ := List.exists_mem_of_length_pos
    ((Nat.zero_lt_one.trans (Nat.lt_of_not_le hcount)).trans_eq count_storings)
  obtain ⟨job, draft, tail, -, -, sends, -⟩ := h.of_storing (mem_storings_iff.mpr hmem)
  have hlength := congrArg List.length sends.stored_eq
  rw [List.filterMap_append, List.length_append, ← count_storings, List.length_singleton] at hlength
  omega

/-- A job that is accepted has stored a message. -/
theorem Accounted.storing_of_accepted (h : Accounted app past t) {job : Job}
    (hjob : t.jobs[number]? = some job) {result : job.work.Result} (hdone : job.rest = done result)
    (accepted : job.work.Accepted (log number past) result) :
    ∃ message, (number, message) ∈ storings past := by
  cases h.dealings hjob with
  | aside _ unaccepted => exact absurd accepted (unaccepted result hdone)
  | @sends draft message tail stored =>
    refine ⟨message, ?_⟩
    rw [mem_storings_iff, List.mem_filterMap]
    exact ⟨_, stored, Exchange.stored?_eq_some_iff.mpr ⟨draft, rfl⟩⟩

/-- **Truthful, complete and unforgeable.** Take any run of a gateway that starts without sessions,
messages and work.

Only what a queue takes gets into it. A frame about a message that the queue of any session takes is
the serialization of a message that is in the store already, stored by the very job that tells the
room now, and the session is a member of the room of that key.

The history of a room consists of the messages for it that jobs have stored, in their order. No job
stores two of them. A job that stores one works in the name of the sender: the session's identity or
the one that the request's token was verified for. It stores the message and next tells the room of
it, once, with nobody left out; when it comes to its end it is accepted, and no other job is. -/
theorem Run.truthful {start : Relay} (run : Run app start past t)
    (nobody : start.gateway.hub.registry = {}) (nothing : start.gateway.messages = {})
    (idle : start.jobs = []) :
    (∀ earlier m later, past = earlier ++ m :: later → ∀ id,
      (m.after.gateway.hub.mailbox id).queue <:+
        (m.before.gateway.hub.mailbox id).queue ++ gained id m ∧
      ∀ frame ∈ gained id m, IsMessageFrame frame → ∃ number message report,
        m.event = .call number ⟨.broadcast (messageEnvelope message), report⟩ ∧
        frame = (RoomRelay.Event.newMessage message).frame ∧
        (number, message) ∈ storings earlier ∧
        message ∈ m.before.gateway.messages.history message.roomId ∧
        id ∈ m.before.gateway.hub.registry.memberIds message.roomId.toString) ∧
    (∀ roomId, t.gateway.messages.history roomId =
      ((storings past).map Prod.snd).filter (·.roomId = roomId)) ∧
    ((storings past).map Prod.fst).Nodup ∧
    (∀ number message, (number, message) ∈ storings past →
      (messageEnvelope message).exclude = none ∧
      ∃ job draft tail, t.jobs[number]? = some job ∧
        job.work.Vouches app (log number past) message.senderId ∧
        Sends draft message (log number past ++ tail) ∧
        ∀ result, job.rest = done result →
          tail = [] ∧ job.work.Accepted (log number past) result) ∧
    ∀ number job result, t.jobs[number]? = some job → job.rest = done result →
      job.work.Accepted (log number past) result →
        ∃ message, (number, message) ∈ storings past := by
  have haccounted := run.accounted nobody nothing idle
  refine ⟨?_, haccounted.history, haccounted.nodup, ?_, ?_⟩
  · rintro earlier m later rfl id
    obtain ⟨hbefore, hstep, -⟩ := run.at_moment
    have hearlier := Run.accounted hbefore nobody nothing idle
    refine ⟨hstep.queue_suffix hearlier.indexed id, ?_⟩
    rintro frame hframe ⟨payload, hpayload⟩
    obtain ⟨session, key, isTyping, htyping⟩ | ⟨number, message, report, hevent, hmessage, hstored,
        hmember⟩ := hearlier.of_gained hstep hframe
    · exact absurd ⟨payload, htyping.symm.trans hpayload⟩ not_isMessageFrame_userTyping
    · exact ⟨number, message, report, hevent, hmessage, hstored, hearlier.mem_history hstored,
        hmember⟩
  · exact fun number message hstored => ⟨rfl, haccounted.of_storing hstored⟩
  · exact fun number job result hjob hdone haccepted =>
      haccounted.storing_of_accepted hjob hdone haccepted

/-! ### A forged greeting -/

/-- The session of a host. -/
def host : Session := ⟨.version4 2, "bob"⟩

/-- A relay to which no work has been brought, with open sessions of a guest and a host. -/
def reception : Relay where
  gateway := { parlour with hub := parlour.hub.openSession host 4 }

/-- A greeting that claims to come from the guest. -/
def forged : String :=
  "\x7b\"type\":\"send_message\",\"payload\":\x7b\"senderId\":\"alice\",\"roomId\":\"" ++
  parlourSpoken ++ "\",\"content\":\"hi\"\x7d\x7d"

/-- The host sends the forged greeting while a request of the guest is being dealt with. -/
def forgery : List Move :=
  .enroll guest :: .begin (.text host forged) :: .begin (.request letter) ::
    (List.replicate 6 [.advance 0, .advance 1]).flatten

/-- The forged greeting is stored, but in the name of the host. -/
theorem Run.truthful_of_forgery : ∃ message,
    (0, message) ∈ storings (reception.play doorkeeper forgery).1 ∧
    message.senderId = "bob" ∧
    message ∈ (reception.play doorkeeper forgery).2.gateway.messages.history parlourId := by
  obtain ⟨hrooms, hwork⟩ :
      (storings (reception.play doorkeeper forgery).1).map (fun p => (p.1, p.2.roomId)) =
        [(0, parlourId), (1, parlourId)] ∧
      (reception.play doorkeeper forgery).2.jobs[0]?.map (·.work) = some (.text host forged) := by
    decide +kernel
  have hrun : Run doorkeeper reception _ _ := Run.of_play forgery
  obtain ⟨-, hhistory, -, hstorings, -⟩ := hrun.truthful rfl rfl rfl
  obtain ⟨⟨_, message⟩, hstored, heq⟩ := List.mem_map.mp (hrooms ▸ List.mem_cons_self)
  obtain ⟨rfl, hroom⟩ := Prod.mk.inj heq
  obtain ⟨-, ⟨work, rest⟩, draft, tail, hjob, hvouches, -⟩ := hstorings _ _ hstored
  rw [hjob] at hwork
  obtain rfl : work = .text host forged := Option.some.inj hwork
  refine ⟨message, hstored, hvouches, ?_⟩
  rw [hhistory, List.mem_filter, decide_eq_true_eq]
  exact ⟨List.mem_map_of_mem hstored, hroom⟩

end Relay

end RoomRelay
