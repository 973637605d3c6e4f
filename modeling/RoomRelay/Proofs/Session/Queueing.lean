import RoomRelay.Proofs.Session.Mailbox
import RoomRelay.Proofs.Trace

/-!
# What a queue answers

A queue is asked to take in a frame, to close, to hand out the frame that has waited longest, or to
let its receiving end go, one after the other and in any order. Each of its answers is determined by
what it has been asked before: whether it was closed, whether its receiving end was dropped, and
which frames it has accepted and handed out.

## Main definitions

* `Mailbox.Request`, `Mailbox.Answer`, `Mailbox.serve` — what a queue is asked, and what it answers
* `Mailbox.Exchange`, `Mailbox.Step`, `Mailbox.Run` — queues that are asked again and again
* `Mailbox.ask` — the run that some requests lead to
* `Mailbox.Books` — what ties a queue to what it has been asked
* `Mailbox.Orderly` — how a queue goes on after a run

## Main results

* `Mailbox.requests_ask` — a queue answers everything that it is asked
* `Mailbox.Books.step`, `Mailbox.Run.books` — every request keeps the books
* `Mailbox.Run.drains` — a closed queue hands out what it holds, and then tells its end
* `Mailbox.Run.orderly`, `Mailbox.orderly_ask` — all answers
-/

namespace RoomRelay.Mailbox

/-! ### What a queue is asked -/

/-- What a queue can be asked at one of its ends. -/
inductive Request
  /-- To take in a frame. -/
  | enqueue (frame : Frame)
  /-- To take in nothing any more. -/
  | close
  /-- To hand out the frame that has waited longest. -/
  | take
  /-- To let its receiving end go. -/
  | dropReceiver
  deriving DecidableEq

/-- What a queue answers. -/
inductive Answer
  /-- The frame waits now. -/
  | accepted
  /-- The frame does not wait. -/
  | refused (fault : EnqueueFault)
  /-- The queue is closed, and this was done just now or not. -/
  | closed (justNow : Bool)
  /-- This frame has waited longest. -/
  | received (frame : Frame)
  /-- No frame waits, but one may come. -/
  | nothing
  /-- No frame will come. -/
  | finished
  /-- The receiving end is gone. -/
  | gone
  deriving DecidableEq

/-- What a queue answers, and what becomes of it. -/
def serve (m : Mailbox) : Request → Answer × Mailbox
  | .enqueue frame =>
    match m.enqueue frame with
    | .ok m' => (.accepted, m')
    | .error fault => (.refused fault, m)
  | .close => (.closed m.close.2, m.close.1)
  | .take =>
    if !m.receiving then (.gone, m)
    else match m.take with
      | some (frame, rest) => (.received frame, rest)
      | none => (if m.isFinished then .finished else .nothing, m)
  | .dropReceiver => (.gone, m.dropReceiver)

/-- A request with its answer. -/
structure Exchange where
  /-- What is asked. -/
  request : Request
  /-- What is answered. -/
  answer : Answer
  deriving DecidableEq

/-- A queue is asked something and answers. -/
def Step (m : Mailbox) (e : Exchange) (m' : Mailbox) : Prop := m.serve e.request = (e.answer, m')

/-- A run of a queue. -/
abbrev Run (start : Mailbox) (past : List (Moment Mailbox Exchange)) (last : Mailbox) : Prop :=
  Trace Step start past last

variable {m m' start last final : Mailbox} {e : Exchange} {request : Request} {frame : Frame}
variable {past later : List (Moment Mailbox Exchange)} {capacity : Nat}

/-- The run of a queue that is asked some things one after the other. -/
def ask (start : Mailbox) (requests : List Request) : List (Moment Mailbox Exchange) × Mailbox :=
  Trace.follow
    (fun m request => some (⟨request, (m.serve request).1⟩, (m.serve request).2)) start requests

theorem Run.of_ask (start : Mailbox) (requests : List Request) :
    Run start (ask start requests).1 (ask start requests).2 := by
  refine Trace.of_follow ?_ requests
  rintro m request e m' h
  obtain ⟨rfl, rfl⟩ := Prod.mk.inj (Option.some_inj.mp h)
  rfl

/-- A queue answers everything that it is asked. -/
theorem requests_ask (start : Mailbox) (requests : List Request) :
    (ask start requests).1.map (·.event.request) = requests := by
  induction requests using List.reverseRecOn with
  | nil => rfl
  | append_singleton requests request ih =>
    rw [ask, Trace.follow, List.foldl_append] at *
    simpa [Trace.extend] using ih

/-! ### The answers one by one -/

theorem serve_enqueue_of_hasPlace (h : m.HasPlace) :
    m.serve (.enqueue frame) = (.accepted, { m with queue := m.queue ++ [frame] }) := by
  rw [serve, enqueue_of_fault?_eq_none (fault?_eq_none_iff.mpr h)]

theorem serve_enqueue_of_fault {fault : EnqueueFault} (h : m.fault? = some fault) :
    m.serve (.enqueue frame) = (.refused fault, m) := by
  rw [serve, enqueue_of_fault?_eq_some h]

theorem serve_enqueue_eq_accepted_iff :
    (m.serve (.enqueue frame)).1 = .accepted ↔ m.HasPlace := by
  rw [← fault?_eq_none_iff]
  cases hfault : m.fault? <;> simp [serve, enqueue, hfault]

theorem serve_enqueue_eq_refused_iff {fault : EnqueueFault} :
    (m.serve (.enqueue frame)).1 = .refused fault ↔ m.fault? = some fault := by
  cases hfault : m.fault? <;> simp [serve, enqueue, hfault]

/-- Closing a queue cuts its sending end off and raises the signal, and leaves the rest. -/
theorem serve_close (m : Mailbox) :
    m.serve .close = (.closed m.sending,
      { m with sending := false, tornDown := m.tornDown || m.sending }) := by
  obtain ⟨capacity, positive, queue, sending, receiving, tornDown⟩ := m
  cases sending <;> simp [serve, close]

theorem serve_take_of_gone (h : m.receiving = false) : m.serve .take = (.gone, m) := by
  simp [serve, h]

theorem serve_take_of_cons {rest : List Frame} (h : m.receiving = true)
    (hqueue : m.queue = frame :: rest) :
    m.serve .take = (.received frame, { m with queue := rest }) := by
  simp [serve, h, take, hqueue]

theorem serve_take_of_nil (h : m.receiving = true) (hqueue : m.queue = []) :
    m.serve .take = (if m.sending then .nothing else .finished, m) := by
  cases hsending : m.sending <;> simp [serve, h, take, hqueue, isFinished, isClosed, hsending]

/-- Everything that can come of a request. -/
inductive Deed (m : Mailbox) : Exchange → Mailbox → Prop
  | accept {frame : Frame} (place : m.HasPlace) :
    Deed m ⟨.enqueue frame, .accepted⟩ { m with queue := m.queue ++ [frame] }
  | refuse {frame : Frame} {fault : EnqueueFault} : Deed m ⟨.enqueue frame, .refused fault⟩ m
  | close : Deed m ⟨.close, .closed m.sending⟩
      { m with sending := false, tornDown := m.tornDown || m.sending }
  | receive {frame : Frame} {rest : List Frame} (receiving : m.receiving = true)
    (first : m.queue = frame :: rest) :
    Deed m ⟨.take, .received frame⟩ { m with queue := rest }
  | find (receiving : m.receiving = true) (empty : m.queue = []) :
    Deed m ⟨.take, if m.sending then .nothing else .finished⟩ m
  | miss (dropped : m.receiving = false) : Deed m ⟨.take, .gone⟩ m
  | drop : Deed m ⟨.dropReceiver, .gone⟩ m.dropReceiver

theorem Step.deed (step : Step m e m') : Deed m e m' := by
  obtain ⟨request, answer⟩ := e
  -- In each case the queue is told to be in a state in which the answer is known.
  cases request with
  | enqueue frame =>
    rw [Step] at step
    cases hfault : m.fault? with
    | none =>
      have hplace := fault?_eq_none_iff.mp hfault
      rw [serve_enqueue_of_hasPlace hplace] at step
      obtain ⟨rfl, rfl⟩ := Prod.mk.inj step
      exact .accept hplace
    | some fault =>
      rw [serve_enqueue_of_fault hfault] at step
      obtain ⟨rfl, rfl⟩ := Prod.mk.inj step
      exact .refuse
  | close =>
    rw [Step, serve_close] at step
    obtain ⟨rfl, rfl⟩ := Prod.mk.inj step
    exact .close
  | take =>
    rw [Step] at step
    cases hreceiving : m.receiving with
    | false =>
      rw [serve_take_of_gone hreceiving] at step
      obtain ⟨rfl, rfl⟩ := Prod.mk.inj step
      exact .miss hreceiving
    | true =>
      cases hqueue : m.queue with
      | nil =>
        rw [serve_take_of_nil hreceiving hqueue] at step
        obtain ⟨rfl, rfl⟩ := Prod.mk.inj step
        exact .find hreceiving hqueue
      | cons frame rest =>
        rw [serve_take_of_cons hreceiving hqueue] at step
        obtain ⟨rfl, rfl⟩ := Prod.mk.inj step
        exact .receive hreceiving hqueue
  | dropReceiver =>
    obtain ⟨rfl, rfl⟩ := Prod.mk.inj step
    exact .drop

/-- Nothing lowers the signal. -/
theorem Step.tornDown (step : Step m e m') (h : m.tornDown = true) : m'.tornDown = true := by
  cases step.deed with
  | close => simp [h]
  | _ => exact h

/-! ### What a queue has been asked -/

/-- This has been asked in the course of a run. -/
def Asked (request : Request) (past : List (Moment Mailbox Exchange)) : Prop :=
  ∃ m ∈ past, m.event.request = request

/-- The frame that is taken in. -/
def Exchange.accepted? : Exchange → Option Frame
  | ⟨.enqueue frame, .accepted⟩ => some frame
  | _ => none

/-- The frame that is handed out. -/
def Exchange.received? : Exchange → Option Frame
  | ⟨.take, .received frame⟩ => some frame
  | _ => none

/-- What is answered to whoever takes from the queue. -/
def Exchange.taking? : Exchange → Option Answer
  | ⟨.take, answer⟩ => some answer
  | _ => none

/-- The frames that were taken in in the course of a run. -/
def accepted (past : List (Moment Mailbox Exchange)) : List Frame :=
  past.filterMap (·.event.accepted?)

/-- The frames that were handed out in the course of a run. -/
def received (past : List (Moment Mailbox Exchange)) : List Frame :=
  past.filterMap (·.event.received?)

/-- What was answered in the course of a run to whoever took from the queue. -/
def takings (past : List (Moment Mailbox Exchange)) : List Answer :=
  past.filterMap (·.event.taking?)

theorem asked_snoc :
    Asked request (past ++ [⟨m, e, m'⟩]) ↔ Asked request past ∨ e.request = request := by
  simp [Asked, or_and_right, exists_or]

theorem accepted_snoc :
    accepted (past ++ [⟨m, e, m'⟩]) = accepted past ++ e.accepted?.toList :=
  filterMap_snoc _ _ _

theorem received_snoc :
    received (past ++ [⟨m, e, m'⟩]) = received past ++ e.received?.toList :=
  filterMap_snoc _ _ _

theorem takings_snoc : takings (past ++ [⟨m, e, m'⟩]) = takings past ++ e.taking?.toList :=
  filterMap_snoc _ _ _

/-! ### The books of a queue -/

/-- What ties a queue to what it has been asked. -/
structure Books (capacity : Nat) (past : List (Moment Mailbox Exchange)) (m : Mailbox) : Prop where
  capacity_eq : m.capacity = max capacity 1
  limit : m.queue.length ≤ m.capacity
  sending : m.sending = true ↔ ¬ Asked .close past
  receiving : m.receiving = true ↔ ¬ Asked .dropReceiver past
  tornDown : m.tornDown = true ↔ Asked .close past
  /-- While the receiving end is there, a frame that was taken in has been handed out or waits. -/
  balance : m.receiving = true → received past ++ m.queue = accepted past
  inOrder : received past <+: accepted past

theorem books_ofCapacity (capacity : Nat) : Books capacity [] (ofCapacity capacity) where
  capacity_eq := rfl
  limit := Nat.zero_le _
  sending := by simp [ofCapacity, Asked]
  receiving := by simp [ofCapacity, Asked]
  tornDown := by simp [ofCapacity, Asked]
  balance := fun _ => rfl
  inOrder := List.nil_prefix

namespace Books

variable (h : Books capacity past m)
include h

/-- A request that changes nothing and concerns no end of the queue. -/
theorem idle (accepts : e.accepted? = none) (hands : e.received? = none)
    (keepsOpen : e.request ≠ .close) (keepsEnd : e.request ≠ .dropReceiver) :
    Books capacity (past ++ [⟨m, e, m⟩]) m where
  capacity_eq := h.capacity_eq
  limit := h.limit
  sending := by rw [asked_snoc, or_iff_left keepsOpen, h.sending]
  receiving := by rw [asked_snoc, or_iff_left keepsEnd, h.receiving]
  tornDown := by rw [asked_snoc, or_iff_left keepsOpen, h.tornDown]
  balance := by simpa [accepted_snoc, received_snoc, accepts, hands] using h.balance
  inOrder := by simpa [accepted_snoc, received_snoc, accepts, hands] using h.inOrder

theorem accept (place : m.HasPlace) :
    Books capacity (past ++ [⟨m, ⟨.enqueue frame, .accepted⟩, m'⟩])
      { m with queue := m.queue ++ [frame] } where
  capacity_eq := h.capacity_eq
  limit := by simpa using Nat.succ_le_of_lt place.2.2
  sending := by simpa [asked_snoc] using h.sending
  receiving := by simpa [asked_snoc] using h.receiving
  tornDown := by simpa [asked_snoc] using h.tornDown
  balance := fun receiving => by
    rw [accepted_snoc, received_snoc, ← h.balance receiving]
    simp [Exchange.accepted?, Exchange.received?]
  inOrder := by
    rw [accepted_snoc, received_snoc]
    simpa [Exchange.received?] using h.inOrder.trans (List.prefix_append _ _)

theorem close :
    Books capacity (past ++ [⟨m, ⟨.close, .closed m.sending⟩, m'⟩])
      { m with sending := false, tornDown := m.tornDown || m.sending } where
  capacity_eq := h.capacity_eq
  limit := h.limit
  sending := by simp [asked_snoc]
  receiving := by simpa [asked_snoc] using h.receiving
  -- The signal was raised by an earlier close, or it is raised here.
  tornDown := by simpa [asked_snoc, h.tornDown, h.sending] using Classical.em _
  balance := by
    simpa [accepted_snoc, received_snoc, Exchange.accepted?, Exchange.received?] using h.balance
  inOrder := by
    simpa [accepted_snoc, received_snoc, Exchange.accepted?, Exchange.received?] using h.inOrder

theorem receive {rest : List Frame} (receiving : m.receiving = true)
    (first : m.queue = frame :: rest) :
    Books capacity (past ++ [⟨m, ⟨.take, .received frame⟩, m'⟩]) { m with queue := rest } := by
  have hbalance : received past ++ [frame] ++ rest = accepted past := by
    rw [← h.balance receiving, first, List.append_assoc, List.singleton_append]
  have hlimit := h.limit
  rw [first, List.length_cons] at hlimit
  exact {
    capacity_eq := h.capacity_eq
    limit := Nat.le_of_succ_le hlimit
    sending := by simpa [asked_snoc] using h.sending
    receiving := by simpa [asked_snoc] using h.receiving
    tornDown := by simpa [asked_snoc] using h.tornDown
    balance := fun _ => by
      rw [accepted_snoc, received_snoc]
      simpa [Exchange.accepted?, Exchange.received?] using hbalance
    inOrder := by
      rw [accepted_snoc, received_snoc, ← hbalance]
      simp [Exchange.accepted?, Exchange.received?] }

theorem drop :
    Books capacity (past ++ [⟨m, ⟨.dropReceiver, .gone⟩, m'⟩]) m.dropReceiver where
  capacity_eq := h.capacity_eq
  limit := Nat.zero_le _
  sending := by simpa [asked_snoc] using h.sending
  receiving := by simp [asked_snoc]
  tornDown := by simpa [asked_snoc] using h.tornDown
  balance := by simp
  inOrder := by
    simpa [accepted_snoc, received_snoc, Exchange.accepted?, Exchange.received?] using h.inOrder

/-- Every request keeps the books. -/
theorem step (step : Step m e m') : Books capacity (past ++ [⟨m, e, m'⟩]) m' := by
  cases step.deed with
  | accept place => exact h.accept place
  | refuse => exact h.idle rfl rfl (by simp) (by simp)
  | close => exact h.close
  | receive receiving first => exact h.receive receiving first
  | find =>
    refine h.idle rfl ?_ (by simp) (by simp)
    cases m.sending <;> rfl
  | miss => exact h.idle rfl rfl (by simp) (by simp)
  | drop => exact h.drop

theorem hasPlace_iff : m.HasPlace ↔
    ¬ Asked .close past ∧ ¬ Asked .dropReceiver past ∧ m.queue.length < max capacity 1 := by
  rw [HasPlace, h.sending, h.receiving, h.capacity_eq]

theorem isFull_iff : m.IsFull ↔
    ¬ Asked .close past ∧ ¬ Asked .dropReceiver past ∧ m.queue.length = max capacity 1 := by
  have hlimit := h.limit
  rw [h.capacity_eq] at hlimit
  rw [IsFull, h.sending, h.receiving, h.capacity_eq]
  exact and_congr_right fun _ => and_congr_right fun _ =>
    ⟨Nat.le_antisymm hlimit, Nat.le_of_eq ∘ Eq.symm⟩

theorem isCut_iff : m.IsCut ↔ Asked .close past ∨ Asked .dropReceiver past := by
  rw [IsCut, ← Bool.not_eq_true, ← Bool.not_eq_true, h.sending, h.receiving, not_not, not_not]

end Books

theorem Run.books (run : Run (ofCapacity capacity) past last) : Books capacity past last := by
  induction run with
  | nil => exact books_ofCapacity capacity
  | snoc _ step ih => exact ih.step step

/-! ### What a closed queue still does -/

/-- A queue that is closed and has its receiving end hands out what it holds, and then tells its
end. What has been answered to whoever took from it, with what is still to come, is that. -/
theorem Run.drains (run : Run m later final) (closed : m.sending = false)
    (holds : ¬ Asked .dropReceiver later) (receiving : m.receiving = true) :
    final.sending = false ∧ final.receiving = true ∧ ∃ ends, ∀ more,
      takings later ++ (final.queue.map .received ++ List.replicate more .finished) =
        m.queue.map .received ++ List.replicate (ends + more) .finished := by
  induction run with
  | nil => exact ⟨closed, receiving, 0, fun more => by simp [takings]⟩
  | @snoc later s t e run step ih =>
    rw [asked_snoc, not_or] at holds
    obtain ⟨hclosed, hreceiving, ends, htakings⟩ := ih holds.1
    -- What is still to come gets shorter by what is answered, and nothing is added to it.
    cases step.deed with
    | accept place => exact absurd (hclosed.symm.trans place.1) (by simp)
    | refuse => exact ⟨hclosed, hreceiving, ends, by simpa [takings_snoc, Exchange.taking?]⟩
    | close => exact ⟨rfl, hreceiving, ends, by simpa [takings_snoc, Exchange.taking?]⟩
    | receive _ first =>
      refine ⟨hclosed, hreceiving, ends, fun more => ?_⟩
      rw [← htakings more, first, takings_snoc]
      simp [Exchange.taking?]
    | find _ empty =>
      -- One end more has been told of those that were to come.
      refine ⟨hclosed, hreceiving, ends + 1, fun more => ?_⟩
      rw [Nat.add_right_comm, Nat.add_assoc, ← htakings (more + 1), takings_snoc, hclosed, empty]
      simp [Exchange.taking?, List.replicate_succ]
    | miss dropped => exact absurd (hreceiving.symm.trans dropped) (by simp)
    | drop => exact absurd rfl holds.2

/-! ### The whole run -/

/-- How a queue goes on after a run: what it answers to the next request, whatever that is, told by
what it has been asked before. As each moment of a run is the end of a shorter one, this tells all
answers of a run. -/
structure Orderly (capacity : Nat) (past : List (Moment Mailbox Exchange)) (last : Mailbox) :
    Prop where
  /-- There are never more frames in the queue than may be. -/
  limit : last.queue.length ≤ max capacity 1
  /-- A frame is taken in exactly if both ends of the queue are there and it has a place. -/
  accepts : ∀ frame, (last.serve (.enqueue frame)).1 = .accepted ↔
    ¬ Asked .close past ∧ ¬ Asked .dropReceiver past ∧ last.queue.length < max capacity 1
  /-- The queue is said to be full exactly if both ends are there and it has no place. -/
  fills : ∀ frame, (last.serve (.enqueue frame)).1 = .refused .full ↔
    ¬ Asked .close past ∧ ¬ Asked .dropReceiver past ∧ last.queue.length = max capacity 1
  /-- The queue is said to be closed exactly if one of its ends is gone. -/
  cuts : ∀ frame, (last.serve (.enqueue frame)).1 = .refused .closed ↔
    Asked .close past ∨ Asked .dropReceiver past
  /-- A frame that is refused changes nothing. -/
  spares : ∀ frame fault, (last.serve (.enqueue frame)).1 = .refused fault →
    (last.serve (.enqueue frame)).2 = last
  /-- The frames that are handed out are a first part of those that were taken in. -/
  inOrder : received past <+: accepted past
  /-- While the receiving end is there, all others wait in the queue, in their order. -/
  keeps : ¬ Asked .dropReceiver past → received past ++ last.queue = accepted past
  /-- The frame that is handed out next is the first one that has not been handed out. -/
  hands : ¬ Asked .dropReceiver past → ∀ frame, (last.serve .take).1 = .received frame ↔
    (accepted past)[(received past).length]? = some frame
  /-- The end is told exactly if the queue has been closed and all frames have been handed out. -/
  ends : ¬ Asked .dropReceiver past → ((last.serve .take).1 = .finished ↔
    Asked .close past ∧ received past = accepted past)
  /-- Only the first one who closes the queue is told to have done so. -/
  closes : ∃ justNow, (last.serve .close).1 = .closed justNow ∧
    (justNow = true ↔ ¬ Asked .close past)
  /-- The queue counts as closed exactly if somebody has closed it. -/
  isClosed : last.isClosed = true ↔ Asked .close past
  /-- The signal is up exactly if somebody has closed the queue. -/
  signal : last.tornDown = true ↔ Asked .close past
  /-- Nothing lowers the signal. -/
  steady : ∀ request, last.tornDown = true → (last.serve request).2.tornDown = true
  /-- Once the queue has been closed, whoever takes from it is given every frame that waits, and
  then is told the end each time, whatever else is asked in between. -/
  drains : Asked .close past → ¬ Asked .dropReceiver past → ∀ later final, Run last later final →
    ¬ Asked .dropReceiver later →
    ∃ more, takings later <+: last.queue.map .received ++ List.replicate more .finished

/-- After any run a queue goes on in an orderly way. -/
theorem Run.orderly (run : Run (ofCapacity capacity) past last) : Orderly capacity past last := by
  -- Each answer depends on the state alone, and the books tell the state from the requests.
  have h := run.books
  have hreceiving : ¬ Asked .dropReceiver past → last.receiving = true := h.receiving.mpr
  have hclosed : last.sending = false ↔ Asked .close past := by
    rw [← Bool.not_eq_true, h.sending, not_not]
  exact {
    limit := h.capacity_eq ▸ h.limit
    accepts := fun _ => serve_enqueue_eq_accepted_iff.trans h.hasPlace_iff
    fills := fun _ => serve_enqueue_eq_refused_iff.trans (fault?_eq_full_iff.trans h.isFull_iff)
    cuts := fun _ => serve_enqueue_eq_refused_iff.trans (fault?_eq_closed_iff.trans h.isCut_iff)
    spares := fun _ _ hrefused => by
      rw [serve_enqueue_of_fault (serve_enqueue_eq_refused_iff.mp hrefused)]
    inOrder := h.inOrder
    keeps := fun hthere => h.balance (hreceiving hthere)
    hands := fun hthere frame => by
      rw [← h.balance (hreceiving hthere), List.getElem?_append_right (Nat.le_refl _), Nat.sub_self]
      cases hqueue : last.queue with
      | nil =>
        rw [serve_take_of_nil (hreceiving hthere) hqueue]
        cases last.sending <;> simp
      | cons first rest =>
        rw [serve_take_of_cons (hreceiving hthere) hqueue]
        simp
    ends := fun hthere => by
      rw [← h.balance (hreceiving hthere), ← hclosed]
      cases hqueue : last.queue with
      | nil =>
        rw [serve_take_of_nil (hreceiving hthere) hqueue]
        cases last.sending <;> simp
      | cons first rest =>
        rw [serve_take_of_cons (hreceiving hthere) hqueue]
        simp
    closes := ⟨last.sending, by rw [serve_close], h.sending⟩
    isClosed := by rw [← hclosed, isClosed, Bool.not_eq_true']
    signal := h.tornDown
    steady := fun request =>
      (show Step last ⟨request, (last.serve request).1⟩ _ from rfl).tornDown
    drains := fun hasked hthere later final more hholds => by
      obtain ⟨-, -, ends, htakings⟩ :=
        more.drains (hclosed.mpr hasked) hholds (hreceiving hthere)
      exact ⟨ends, ⟨_, htakings 0⟩⟩ }

/-- **Order in the queue.** A queue of any capacity answers whatever it is asked, in any order, and
it goes on in an orderly way. -/
theorem orderly_ask (capacity : Nat) (requests : List Request) :
    let run := ask (ofCapacity capacity) requests
    run.1.map (·.event.request) = requests ∧ Orderly capacity run.1 run.2 :=
  ⟨requests_ask _ requests, (Run.of_ask _ requests).orderly⟩

/-- A capacity of zero counts as one, and the frame that was accepted comes out after the queue has
been closed. -/
example : (ask (ofCapacity 0) [.enqueue "first", .enqueue "second", .close, .enqueue "third",
    .close, .take, .take, .dropReceiver, .take]).1.map (·.event.answer) =
      [.accepted, .refused .full, .closed true, .refused .closed, .closed false,
        .received "first", .finished, .gone, .gone] := by
  decide

end RoomRelay.Mailbox
