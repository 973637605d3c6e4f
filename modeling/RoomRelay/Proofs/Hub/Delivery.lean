import Mathlib.Data.List.TakeWhile
import RoomRelay.Proofs.Hub.Fanout

/-!
# Which frames a session is sent

Over a run of the hub, the queue of a session takes exactly the frames of the broadcasts that are
meant for it, in their order and once each, until the first one that finds it full. That one tears
the session down, and the queue takes nothing more. What the receiving end takes from the queue is
at any time a first part of what the queue has taken.

## Main definitions

* `Hub.accepted`, `Hub.taken` — the frames that went into a queue, and those that came out
* `Hub.meant`, `Hub.Overflows` — the frame that a moment has for a session, and no place for it
* `Hub.due` — the frames a session should be sent, said without its queue's contents
* `Hub.Ledger` — what ties a session's queue to the run so far

## Main results

* `Hub.Ledger.step` — every act keeps the books
* `Hub.Run.exact_delivery` — what is accepted is what is due
-/

namespace RoomRelay.Hub

variable {hub hub' start : Hub} {id : SessionId} {act : Act} {frame : Frame}
variable {past later : List (Moment Hub Act)} {m : Moment Hub Act}

/-! ### Frames that come and go -/

/-- The frames that were put at the end of the queue of a session at a moment. -/
def gained (id : SessionId) (m : Moment Hub Act) : List Frame :=
  (m.after.mailbox id).queue.drop (m.before.mailbox id).queue.length

/-- The frames that the queue of a session accepted in the course of a run. -/
def accepted (id : SessionId) (past : List (Moment Hub Act)) : List Frame :=
  past.flatMap (gained id)

/-- The frame that the receiving end of a session takes in an act. -/
def Act.takenFrom (id : SessionId) : Act → Option Frame
  | take other frame => if other = id then some frame else none
  | _ => none

/-- The frames that the receiving end of a session took in the course of a run. -/
def taken (id : SessionId) (past : List (Moment Hub Act)) : List Frame :=
  past.filterMap fun m => m.event.takenFrom id

/-! ### Frames that are due -/

/-- The frame that a moment has for a session: that of a broadcast to a room of which the session is
a member when it begins, unless the session is left out. -/
def meant (id : SessionId) (m : Moment Hub Act) : Option Frame :=
  match m.event with
  | .broadcast envelope => if envelope.Addresses m.before id then some envelope.frame else none
  | _ => none

/-- A moment has a frame for a session whose queue is full. -/
def Overflows (id : SessionId) (m : Moment Hub Act) : Prop :=
  (meant id m).isSome = true ∧ (m.before.mailbox id).fault? = some .full

instance (id : SessionId) : DecidablePred (Overflows id) :=
  fun _ => inferInstanceAs (Decidable (_ ∧ _))

/-- The frames that are due to a session: all that are meant for it before the first one that finds
its queue full. -/
def due (id : SessionId) (past : List (Moment Hub Act)) : List Frame :=
  (past.takeWhile fun m => ¬ Overflows id m).filterMap (meant id)

theorem due_snoc_of_overflowed (h : ∃ n ∈ past, Overflows id n) :
    due id (past ++ [m]) = due id past := by
  obtain ⟨n, hn, ho⟩ := h
  unfold due
  rw [List.takeWhile_append, if_neg]
  -- If the run so far counted as a whole, the overflow in it would count too.
  intro hlen
  have hall := List.takeWhile_eq_self_iff.mp
    (List.IsPrefix.eq_of_length (List.takeWhile_prefix _) hlen) n hn
  simp [ho] at hall

theorem due_snoc (h : ∀ n ∈ past, ¬ Overflows id n) :
    due id (past ++ [m]) = due id past ++ if Overflows id m then [] else (meant id m).toList := by
  have hall : past.takeWhile (fun m => ¬ Overflows id m) = past :=
    List.takeWhile_eq_self_iff.mpr fun n hn => decide_eq_true (h n hn)
  unfold due
  rw [List.takeWhile_append_of_pos fun n hn => decide_eq_true (h n hn), List.filterMap_append, hall]
  by_cases ho : Overflows id m
  · simp [ho]
  · cases hm : meant id m <;> simp [ho, hm]

/-- Nothing is due from an overflow on. -/
theorem due_append_of_overflows (h : Overflows id m) :
    due id (past ++ m :: later) = due id past := by
  unfold due
  rw [List.takeWhile_append]
  split
  · rename_i hlen
    rw [List.takeWhile_cons_of_neg (by simp [h]), List.append_nil,
      List.IsPrefix.eq_of_length (List.takeWhile_prefix _) hlen]
  · rfl

theorem due_snoc_of_meant_eq_none (h : meant id m = none) : due id (past ++ [m]) = due id past := by
  by_cases hp : ∃ n ∈ past, Overflows id n
  · exact due_snoc_of_overflowed hp
  · have hno : ∀ n ∈ past, ¬ Overflows id n := fun n hn ho => hp ⟨n, hn, ho⟩
    rw [due_snoc hno, h]
    simp

/-! ### The books of a session -/

/-- A session is to be registered at most once in the course of a run. -/
def RegisteredOnce (id : SessionId) (past : List (Moment Hub Act)) : Prop :=
  (enrolled past).countP (·.id = id) ≤ 1

instance (past : List (Moment Hub Act)) : Decidable (RegisteredOnce id past) :=
  inferInstanceAs (Decidable (_ ≤ _))

theorem RegisteredOnce.of_append (h : RegisteredOnce id (past ++ later)) :
    RegisteredOnce id past := by
  unfold RegisteredOnce enrolled at h ⊢
  rw [List.filterMap_append, List.countP_append] at h
  omega

/-- The last session to be registered is the first one of its identifier. -/
theorem RegisteredOnce.not_mem_of_snoc {session : Session}
    (h : RegisteredOnce id (past ++ [⟨hub, .enroll session, hub'⟩])) (hid : session.id = id) :
    ∀ s ∈ enrolled past, s.id ≠ id := by
  unfold RegisteredOnce at h
  rw [enrolled_snoc, List.countP_append] at h
  -- The last one counts already.
  have hzero : (enrolled past).countP (·.id = id) = 0 := by
    simp only [Act.enrollee?, Option.toList_some, List.countP_singleton, hid, decide_true,
      if_true] at h
    omega
  simpa using List.countP_eq_zero.mp hzero

/-- The books of a session after a run in which it is registered at most once: its queue holds what
it accepted and nobody took, it accepted what is due, and it is open as long as the session may
still be sent anything. -/
structure Ledger (id : SessionId) (past : List (Moment Hub Act)) (hub : Hub) : Prop where
  balance : taken id past ++ (hub.mailbox id).queue = accepted id past
  settled : accepted id past = due id past
  receiving : (hub.mailbox id).receiving = true
  admitted : hub.registry.contains id = true → ∃ s ∈ enrolled past, s.id = id
  sending : hub.registry.contains id = true ∨ (∀ s ∈ enrolled past, s.id ≠ id) →
    (hub.mailbox id).sending = true
  closing : (∃ m ∈ past, Overflows id m) →
    hub.registry.contains id = false ∧ ∃ s ∈ enrolled past, s.id = id

theorem accepted_snoc : accepted id (past ++ [m]) = accepted id past ++ gained id m := by
  simp [accepted]

theorem taken_snoc :
    taken id (past ++ [m]) = taken id past ++ (m.event.takenFrom id).toList :=
  filterMap_snoc _ _ _

theorem gained_of_queue_eq_append {frames : List Frame}
    (h : (m.after.mailbox id).queue = (m.before.mailbox id).queue ++ frames) :
    gained id m = frames := by
  rw [gained, h, List.drop_left]

theorem exists_mem_snoc {P : Moment Hub Act → Prop} :
    (∃ n ∈ past ++ [m], P n) ↔ (∃ n ∈ past, P n) ∨ P m := by
  simp only [List.mem_append, List.mem_singleton, or_and_right, exists_or, exists_eq_left]

theorem forall_mem_snoc {P : Moment Hub Act → Prop} :
    (∀ n ∈ past ++ [m], P n) ↔ (∀ n ∈ past, P n) ∧ P m := by
  simp only [List.mem_append, List.mem_singleton, or_imp, forall_and, forall_eq]

theorem exists_enrolled_snoc (h : ∃ s ∈ enrolled past, s.id = id) :
    ∃ s ∈ enrolled (past ++ [m]), s.id = id := by
  obtain ⟨s, hs, hid⟩ := h
  rw [enrolled_snoc]
  exact ⟨s, List.mem_append_left _ hs, hid⟩

theorem forall_enrolled_of_snoc (h : ∀ s ∈ enrolled (past ++ [m]), s.id ≠ id) :
    ∀ s ∈ enrolled past, s.id ≠ id := by
  intro s hs
  rw [enrolled_snoc] at h
  exact h s (List.mem_append_left _ hs)

theorem Ledger.not_overflowed (h : Ledger id past hub) (hc : hub.registry.contains id = true) :
    ∀ n ∈ past, ¬ Overflows id n := by
  intro n hn ho
  rw [(h.closing ⟨n, hn, ho⟩).1] at hc
  exact absurd hc (by simp)

/-- An act that only closes queues at most keeps the frames in balance. -/
theorem Ledger.balance_of_queue_eq (h : Ledger id past hub)
    (hq : (hub'.mailbox id).queue = (hub.mailbox id).queue) (ht : act.takenFrom id = none)
    (hdue : due id (past ++ [⟨hub, act, hub'⟩]) = due id past) :
    taken id (past ++ [⟨hub, act, hub'⟩]) ++ (hub'.mailbox id).queue =
      accepted id (past ++ [⟨hub, act, hub'⟩]) ∧
    accepted id (past ++ [⟨hub, act, hub'⟩]) = due id (past ++ [⟨hub, act, hub'⟩]) := by
  have hg : gained id ⟨hub, act, hub'⟩ = [] :=
    gained_of_queue_eq_append (hq.trans (List.append_nil _).symm)
  rw [accepted_snoc, taken_snoc, hg, hdue, hq, ht]
  simp [h.balance, h.settled]

/-- The books of a session that an act leaves alone. -/
theorem Ledger.kept (h : Ledger id past hub) (hk : Kept id hub hub')
    (ht : act.takenFrom id = none) (hm : meant id ⟨hub, act, hub'⟩ = none) :
    Ledger id (past ++ [⟨hub, act, hub'⟩]) hub' := by
  obtain ⟨hbalance, hsettled⟩ := h.balance_of_queue_eq (congrArg Mailbox.queue hk.mailbox_eq) ht
    (due_snoc_of_meant_eq_none hm)
  refine ⟨hbalance, hsettled, ?_, ?_, ?_, ?_⟩
  · rw [hk.mailbox_eq]
    exact h.receiving
  · rw [hk.contains_eq]
    exact fun hc => exists_enrolled_snoc (h.admitted hc)
  · rw [hk.contains_eq, hk.mailbox_eq]
    exact fun hc => h.sending (hc.imp_right forall_enrolled_of_snoc)
  · rw [hk.contains_eq, exists_mem_snoc]
    rintro (ho | ho)
    · exact ⟨(h.closing ho).1, exists_enrolled_snoc (h.closing ho).2⟩
    · have hsome := ho.1
      rw [hm] at hsome
      exact absurd hsome (by simp)

/-- The books of a session that an act tears down. -/
theorem Ledger.tornDown (h : Ledger id past hub) (htorn : TornDown id hub hub')
    (ht : act.takenFrom id = none)
    (hdue : due id (past ++ [⟨hub, act, hub'⟩]) = due id past) :
    Ledger id (past ++ [⟨hub, act, hub'⟩]) hub' := by
  have hqueue : (hub'.mailbox id).queue = (hub.mailbox id).queue := by
    rw [htorn.mailbox_eq, Mailbox.queue_close]
  obtain ⟨hbalance, hsettled⟩ := h.balance_of_queue_eq hqueue ht hdue
  have henrolled := h.admitted htorn.registered
  refine ⟨hbalance, hsettled, ?_, ?_, ?_, ?_⟩
  · rw [htorn.mailbox_eq, Mailbox.receiving_close]
    exact h.receiving
  · rw [htorn.gone]
    exact fun hc => absurd hc (by simp)
  · rw [htorn.gone]
    rintro (hc | hnone)
    · exact absurd hc (by simp)
    · -- Whoever is torn down has been registered, so it is not still to come.
      obtain ⟨s, hs, hid⟩ := henrolled
      exact absurd hid (forall_enrolled_of_snoc hnone s hs)
  · intro _
    exact ⟨htorn.gone, exists_enrolled_snoc henrolled⟩

/-- The books of a session that is to be registered for the first time. -/
theorem Ledger.enroll {session : Session} (h : Ledger session.id past hub)
    (hi : hub.registry.Indexed) (honce : ∀ s ∈ enrolled past, s.id ≠ session.id) :
    Ledger session.id (past ++ [⟨hub, .enroll session, (hub.enroll session).2⟩])
      (hub.enroll session).2 := by
  have hopen := h.sending (Or.inr honce)
  have hself : ∃ s ∈ enrolled (past ++ [⟨hub, .enroll session, (hub.enroll session).2⟩]),
      s.id = session.id := by
    rw [enrolled_snoc]
    exact ⟨session, List.mem_append_right _ (List.mem_singleton_self _), rfl⟩
  -- Nothing has overflowed, since only a session that was registered can.
  have hno : ∀ n ∈ past ++ [⟨hub, .enroll session, (hub.enroll session).2⟩],
      ¬ Overflows session.id n := by
    rw [forall_mem_snoc]
    refine ⟨fun n hn ho => ?_, fun ho => absurd ho.1 (by simp [meant])⟩
    obtain ⟨s, hs, hid⟩ := (h.closing ⟨n, hn, ho⟩).2
    exact honce s hs hid
  have habsent : hub.registry.contains session.id = false := by
    rw [← Bool.not_eq_true]
    intro hc
    obtain ⟨s, hs, hid⟩ := h.admitted hc
    exact honce s hs hid
  -- Whether it is admitted or refused, its queue keeps its frames and its receiver.
  have hkeeps : ((hub.enroll session).2.mailbox session.id).queue =
        (hub.mailbox session.id).queue ∧
      ((hub.enroll session).2.mailbox session.id).receiving =
        (hub.mailbox session.id).receiving := by
    rcases enroll_self session hi with ⟨-, -, hm⟩ | ⟨-, hm⟩
    · rw [hm, Mailbox.queue_close, Mailbox.receiving_close]
      exact ⟨rfl, rfl⟩
    · rw [hm]
      exact ⟨rfl, rfl⟩
  obtain ⟨hbalance, hsettled⟩ := h.balance_of_queue_eq hkeeps.1
    (rfl : Act.takenFrom session.id (.enroll session) = none) (due_snoc_of_meant_eq_none rfl)
  refine ⟨hbalance, hsettled, hkeeps.2.trans h.receiving, fun _ => hself, ?_, ?_⟩
  · rintro (hc | hnone)
    · rcases enroll_self session hi with ⟨hr, -, -⟩ | ⟨-, hm⟩
      · rw [hr, habsent] at hc
        exact absurd hc (by simp)
      · rw [hm]
        exact hopen
    · obtain ⟨s, hs, hid⟩ := hself
      exact absurd hid (hnone s hs)
  · rintro ⟨n, hn, ho⟩
    exact absurd ho (hno n hn)

/-- The books of a session that is offered a frame by a broadcast. -/
theorem Ledger.offered {envelope : Envelope} (h : Ledger id past hub)
    (hc : hub.registry.contains id = true) (haddr : envelope.Addresses hub id)
    (hoffered : Offered id envelope.frame hub hub') :
    Ledger id (past ++ [⟨hub, .broadcast envelope, hub'⟩]) hub' := by
  have hmeant : meant id ⟨hub, .broadcast envelope, hub'⟩ = some envelope.frame := by
    simp [meant, haddr]
  have hdue := due_snoc (m := ⟨hub, .broadcast envelope, hub'⟩) (h.not_overflowed hc)
  cases hoffered with
  | delivered hfault hcontains hmailbox =>
    -- The frame is due, and it goes to the end of the queue.
    have hno : ¬ Overflows id ⟨hub, .broadcast envelope, hub'⟩ := by
      rintro ⟨-, hfull⟩
      exact absurd (hfault.symm.trans hfull) (by simp)
    have hqueue := congrArg Mailbox.queue hmailbox
    rw [if_neg hno, hmeant] at hdue
    refine ⟨?_, ?_, ?_, ?_, ?_, ?_⟩
    · rw [accepted_snoc, taken_snoc, gained_of_queue_eq_append hqueue, hqueue, ← h.balance]
      simp [Act.takenFrom]
    · rw [accepted_snoc, gained_of_queue_eq_append hqueue, hdue, h.settled]
      rfl
    · rw [hmailbox]
      exact h.receiving
    · intro _
      exact exists_enrolled_snoc (h.admitted hc)
    · intro _
      rw [hmailbox]
      exact h.sending (Or.inl hc)
    · rw [exists_mem_snoc]
      rintro (⟨n, hn, ho⟩ | ho)
      · exact absurd ho (h.not_overflowed hc n hn)
      · exact absurd ho hno
  | overflowed hfull htorn =>
    -- The frame is the first that is not due.
    have ho : Overflows id ⟨hub, .broadcast envelope, hub'⟩ := by
      refine ⟨?_, hfull⟩
      rw [hmeant]
      rfl
    rw [if_pos ho, List.append_nil] at hdue
    exact h.tornDown htorn rfl hdue
  | unreachable hclosed _ =>
    -- A registered session has both ends of its queue.
    have hsending := h.sending (Or.inl hc)
    simp [Mailbox.fault?, hsending, h.receiving] at hclosed

/-- The books of a session whose receiving end takes a frame. -/
theorem Ledger.take {rest : Mailbox} (h : Ledger id past hub)
    (htake : (hub.mailbox id).take = some (frame, rest)) :
    Ledger id (past ++ [⟨hub, .take id frame, hub.setMailbox id rest⟩])
      (hub.setMailbox id rest) := by
  obtain ⟨hqueue, hrest⟩ := Mailbox.eq_of_take_eq_some htake
  have hmailbox : (hub.setMailbox id rest).mailbox id = rest := by
    rw [mailbox_setMailbox, if_pos rfl]
  have hgained : gained id ⟨hub, .take id frame, hub.setMailbox id rest⟩ = [] := by
    simp [gained, hmailbox, hqueue]
  have hdue : due id (past ++ [⟨hub, .take id frame, hub.setMailbox id rest⟩]) = due id past :=
    due_snoc_of_meant_eq_none rfl
  refine ⟨?_, ?_, ?_, ?_, ?_, ?_⟩
  · rw [accepted_snoc, taken_snoc, hgained, hmailbox, List.append_nil, ← h.balance, hqueue]
    simp [Act.takenFrom]
  · rw [accepted_snoc, hgained, hdue, List.append_nil]
    exact h.settled
  · rw [hmailbox, hrest]
    exact h.receiving
  · intro hc
    exact exists_enrolled_snoc (h.admitted hc)
  · rw [hmailbox, hrest]
    exact fun hc => h.sending (hc.imp_right forall_enrolled_of_snoc)
  · rw [exists_mem_snoc]
    rintro (ho | ho)
    · exact ⟨(h.closing ho).1, exists_enrolled_snoc (h.closing ho).2⟩
    · exact absurd ho.1 (by simp [meant])

/-- Every act keeps the books of a session, provided that the session is not registered again and
that nobody but the hub and its receiver handles its queue. -/
theorem Ledger.step (h : Ledger id past hub) (hi : hub.registry.Indexed)
    (step : Step hub act hub') (halone : act ≠ .handle id)
    (honce : ∀ session, act = .enroll session → session.id = id →
      ∀ s ∈ enrolled past, s.id ≠ id) :
    Ledger id (past ++ [⟨hub, act, hub'⟩]) hub' := by
  by_cases hact : act.Concerns id
  · -- The act is to register the session, is a broadcast, or takes a frame from its queue.
    cases step with
    | @enroll session =>
      obtain rfl : session.id = id := hact
      exact h.enroll hi (honce session rfl rfl)
    | @broadcast envelope order perm =>
      by_cases haddr : envelope.Addresses hub id
      · have hc := hi.contains_of_isMember (Registry.mem_memberIds.mp haddr.1)
        exact h.offered hc haddr (offered_of_addresses hi perm haddr)
      · exact h.kept (kept_of_not_addresses hi perm haddr) rfl (by simp [meant, haddr])
    | @take other frame rest htake =>
      obtain rfl : other = id := hact
      exact h.take htake
    | @handle other =>
      obtain rfl : other = id := hact
      exact absurd rfl halone
    | withdraw | join | leave | drain => exact absurd hact not_false
  · have ht : act.takenFrom id = none := by
      cases act with
      | take other frame => exact if_neg hact
      | _ => rfl
    have hm : meant id ⟨hub, act, hub'⟩ = none := by
      cases act with
      | broadcast => exact absurd trivial hact
      | _ => rfl
    rcases step.kept_or_tornDown hi hact with hk | htorn
    · exact h.kept hk ht hm
    · exact h.tornDown htorn ht (due_snoc_of_meant_eq_none hm)

/-! ### Whole runs -/

theorem ledger_nil {capacity : Nat} (absent : start.registry.contains id = false)
    (fresh : start.mailbox id = .ofCapacity capacity) : Ledger id [] start := by
  refine ⟨?_, rfl, ?_, ?_, ?_, by simp⟩
  · rw [fresh]
    rfl
  · rw [fresh]
    rfl
  · rw [absent]
    exact fun hc => absurd hc (by simp)
  · rw [fresh]
    exact fun _ => rfl

theorem Run.ledger {capacity : Nat} (run : Run start past hub) (hi : start.registry.Indexed)
    (absent : start.registry.contains id = false) (fresh : start.mailbox id = .ofCapacity capacity)
    (once : RegisteredOnce id past) (alone : ∀ m ∈ past, m.event ≠ .handle id) :
    Ledger id past hub := by
  induction run with
  | nil => exact ledger_nil absent fresh
  | snoc run step ih =>
    obtain ⟨halone, hm⟩ := forall_mem_snoc.mp alone
    refine (ih once.of_append halone).step (Run.indexed run hi) step hm ?_
    rintro session rfl hid
    exact once.not_mem_of_snoc hid

/-- Who was never to be registered is not registered. -/
theorem Run.contains_eq_false (run : Run start past hub) (empty : start.registry = {})
    (hi : hub.registry.Indexed) (unseen : ∀ s ∈ enrolled past, s.id ≠ id) :
    hub.registry.contains id = false := by
  rw [← Bool.not_eq_true, Registry.contains_iff]
  rintro ⟨session, hs⟩
  exact unseen session (run.mem_enrolled empty hs) (hi.session_id hs)

/-- An overflow is a broadcast that tears the session down. -/
theorem Step.tornDown_of_overflows (step : Step hub act hub') (h : hub.registry.Indexed)
    (ho : Overflows id ⟨hub, act, hub'⟩) : TornDown id hub hub' := by
  obtain ⟨hsome, hfull⟩ := ho
  cases step with
  | @broadcast envelope order perm =>
    by_cases haddr : envelope.Addresses hub id
    · cases offered_of_addresses h perm haddr with
      | delivered hfault => exact absurd (hfault.symm.trans hfull) (by simp)
      | overflowed _ htorn => exact htorn
      | unreachable hclosed => exact absurd (hclosed.symm.trans hfull) (by simp)
    · simp [meant, haddr] at hsome
  | enroll | withdraw | join | leave | drain | take | handle => simp [meant] at hsome

/-- **Exact delivery.** Take any run of a hub that starts without sessions, and from some moment on
a session whose queue is made then, which is registered at most once, keeps its receiver alive and
is closed by nobody but the hub. The queue of the session accepts the frames of just those
broadcasts that find it a member of their room and do not leave it out, in their order and once
each, up to the first that finds the queue full. The receiver takes a first part of what is
accepted, and the queue holds the rest. A broadcast that finds the queue full takes the session out
of the registry and of all rooms and closes it, and nothing is accepted from then on. -/
theorem Run.exact_delivery {origin : Hub} {prelude : List (Moment Hub Act)} {capacity : Nat}
    (before : Run origin prelude start) (empty : origin.registry = {})
    (unseen : ∀ s ∈ enrolled prelude, s.id ≠ id) (made : start.mailbox id = .ofCapacity capacity)
    (run : Run start past hub) (once : RegisteredOnce id past)
    (alone : ∀ m ∈ past, m.event ≠ .handle id) :
    accepted id past = due id past ∧
    taken id past <+: accepted id past ∧
    taken id past ++ (hub.mailbox id).queue = accepted id past ∧
    ∀ earlier m later, past = earlier ++ m :: later → Overflows id m →
      TornDown id m.before m.after ∧ m.after.isClosed id = true ∧
      m.after.registry.roomsOf id = [] ∧ accepted id (m :: later) = [] := by
  have hi : start.registry.Indexed := by
    refine before.indexed ?_
    rw [empty]
    exact Registry.indexed_empty
  have habsent := before.contains_eq_false empty hi unseen
  have hledger := run.ledger hi habsent made once alone
  refine ⟨hledger.settled, ⟨_, hledger.balance⟩, hledger.balance, ?_⟩
  rintro earlier m later rfl ho
  obtain ⟨hrun, hstep, -⟩ := run.at_moment
  have hindexed := Run.indexed hrun hi
  have htorn := hstep.tornDown_of_overflows hindexed ho
  refine ⟨htorn, ?_, (hstep.indexed hindexed).roomsOf_eq_nil htorn.gone, ?_⟩
  · rw [isClosed, htorn.mailbox_eq, Mailbox.isClosed_close]
  · -- Up to the overflow as much was accepted as in the whole run.
    have hearlier : accepted id earlier = due id earlier :=
      (Run.ledger hrun hi habsent made once.of_append
        fun n hn => alone n (List.mem_append_left _ hn)).settled
    have hall : accepted id (earlier ++ m :: later) = due id earlier :=
      hledger.settled.trans (due_append_of_overflows ho)
    have happend : accepted id (earlier ++ m :: later) =
        accepted id earlier ++ accepted id (m :: later) := List.flatMap_append
    rw [happend, hearlier] at hall
    exact List.self_eq_append_right.mp hall.symm

/-- A hub with a queue of one place for a session to come. -/
def withMailbox : Hub := openSession {} (sessionOf "alice" 1) 1

/-- What happens to a session that is sent a first frame, takes it, misses a second one because it
caused it, is sent a third one and has no place for a fourth one. -/
def overrun : List Act :=
  [.enroll (sessionOf "alice" 1), .broadcast ⟨"general", "early", none⟩,
    .join (sessionOf "alice" 1).id "general", .broadcast ⟨"general", "first", none⟩,
    .take (sessionOf "alice" 1).id "first",
    .broadcast ⟨"general", "second", some (sessionOf "alice" 1).id⟩,
    .broadcast ⟨"general", "third", none⟩, .broadcast ⟨"general", "fourth", none⟩,
    .take (sessionOf "alice" 1).id "third", .broadcast ⟨"general", "fifth", none⟩]

theorem Run.exact_delivery_of_overrun :
    RegisteredOnce (sessionOf "alice" 1).id (withMailbox.play overrun).1 ∧
    (∀ m ∈ (withMailbox.play overrun).1, m.event ≠ .handle (sessionOf "alice" 1).id) ∧
    accepted (sessionOf "alice" 1).id (withMailbox.play overrun).1 =
      due (sessionOf "alice" 1).id (withMailbox.play overrun).1 ∧
    due (sessionOf "alice" 1).id (withMailbox.play overrun).1 = ["first", "third"] := by
  have honce : RegisteredOnce (sessionOf "alice" 1).id (withMailbox.play overrun).1 := by decide
  have halone : ∀ m ∈ (withMailbox.play overrun).1,
      m.event ≠ .handle (sessionOf "alice" 1).id := by decide
  have hmade : withMailbox.mailbox (sessionOf "alice" 1).id = .ofCapacity 1 := rfl
  have hdelivery := Run.exact_delivery (.nil : Run withMailbox [] withMailbox) rfl
    (by simp [enrolled]) hmade (Run.of_play overrun) honce halone
  exact ⟨honce, halone, hdelivery.1, by decide⟩

end RoomRelay.Hub
