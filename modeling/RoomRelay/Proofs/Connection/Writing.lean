import RoomRelay.Connection.Outbound
import RoomRelay.Proofs.Hub.Standing

/-!
# What is written to a client

Frames are put into the queue of a connection while its writer takes them out and hands them to the
sink, with pings in between. Any of that may happen at any time: when a frame waits and a ping is
due the writer may go on with either, a write may succeed, fail or take too long, the queue may be
closed, and the writer may be stopped in the middle of a write.

The frames that are handed to the sink are a first part of those that the queue has accepted. None
is skipped, for a frame leaves the queue only when it is handed on, and a writer that has failed to
write hands on nothing more. A writer ends by itself only when the queue is closed and empty.

## Main definitions

* `Writer.Event`, `Writer.Step`, `Writer.Run` — what can happen to a writer, and runs
* `Writer.accepted`, `Writer.handed` — the frames that the queue accepts, the messages handed on
* `Writer.Books`, `Writer.Intact` — what ties a writer to the run so far

## Main results

* `Writer.Books.step`, `Writer.Intact.step` — every step keeps the books
* `Writer.exists_run` — what a writer does at once is such a run
* `Writer.Run.preserves_queue` — the queue is passed on in its order, and all of it at the end
-/

namespace RoomRelay

/-- The frame of a message that has one. -/
def Outgoing.text? : Outgoing → Option Frame
  | text frame => some frame
  | ping => none

/-- The message that is being written. -/
def OutboundPump.pending (p : OutboundPump) : List Outgoing :=
  match p.state with
  | .writing message _ => [message]
  | .waiting | .ended => []

theorem OutboundPump.pending_of_ended {p : OutboundPump} (h : p.isEnded = true) :
    p.pending = [] := by
  have hstate : p.state = .ended := by simpa [isEnded] using h
  rw [pending, hstate]

namespace Writer

/-! ### What can happen -/

/-- What can be observed of a writer, its queue and its sink. -/
inductive Event
  /-- The queue accepts a frame. -/
  | accept (frame : Frame)
  /-- The queue refuses a frame. -/
  | refuse (frame : Frame) (fault : EnqueueFault)
  /-- The queue is closed. -/
  | close
  /-- A message is handed to the sink. -/
  | hand (message : Outgoing)
  /-- The message has been written. -/
  | wrote (message : Outgoing)
  /-- The write has failed or taken too long. -/
  | lose (message : Outgoing)
  /-- The writer finds that no frame will come. -/
  | finish
  /-- The writer is stopped. -/
  | abort
  /-- Something else happens. -/
  | quiet
  deriving DecidableEq

/-- One step of a writer or of those at the other ends of its queue and of its sink. The time at
which it happens is left open, as is whether the writer takes a frame that waits or a ping that is
due. -/
inductive Step : Writer → Event → Writer → Prop
  | accept {w : Writer} {frame : Frame} {m : Mailbox} (accepts : w.mailbox.enqueue frame = .ok m) :
    Step w (.accept frame) { w with mailbox := m }
  | refuse {w : Writer} {frame : Frame} {fault : EnqueueFault}
    (refuses : w.mailbox.enqueue frame = .error fault) : Step w (.refuse frame fault) w
  | close {w : Writer} : Step w .close { w with mailbox := w.mailbox.close.1 }
  | frame {w : Writer} {frame : Frame} {rest : Mailbox} {now : Nat}
    (waiting : w.pump.state = .waiting) (taken : w.mailbox.take = some (frame, rest)) :
    Step w (.hand (.text frame))
      { w with pump := w.pump.beginWrite now (.text frame), mailbox := rest }
  | ping {w : Writer} {now : Nat} (waiting : w.pump.state = .waiting)
    (due : w.pump.nextPing ≤ now) : Step w (.hand .ping) { w with pump := w.pump.beginPing now }
  | wrote {w : Writer} {message : Outgoing} {deadline now : Nat}
    (writing : w.pump.state = .writing message deadline) (written : w.sink.offer.1 = .written) :
    Step w (.wrote message) (w.push now deadline message)
  | lose {w : Writer} {message : Outgoing} {deadline now : Nat}
    (writing : w.pump.state = .writing message deadline)
    (lost : w.sink.offer.1 = .failed ∨ w.sink.offer.1 = .stalled ∧ deadline ≤ now) :
    Step w (.lose message) (w.push now deadline message)
  | finish {w : Writer} (waiting : w.pump.state = .waiting)
    (finished : w.mailbox.isFinished = true) :
    Step w .finish { w with pump := { w.pump with state := .ended } }
  /-- The writer is stopped, and its end of the queue is dropped. -/
  | abort {w : Writer} (running : w.pump.isEnded = false) :
    Step w .abort
      { w with pump := { w.pump with state := .ended }, mailbox := w.mailbox.dropReceiver }
  /-- A writer that is done drops its end of the queue. -/
  | release {w : Writer} (ended : w.pump.isEnded = true) :
    Step w .quiet { w with mailbox := w.mailbox.dropReceiver }
  /-- The client reads, stops reading or goes. -/
  | client {w : Writer} {sink : Sink} : Step w .quiet { w with sink }

/-- A run of a writer. -/
abbrev Run (start : Writer) (past : List (Moment Writer Event)) (last : Writer) : Prop :=
  Trace Step start past last

/-- A writer that has just been started, with the queue of its session. -/
def fresh (limits : HubConfig) (now : Nat) (sink : Sink) : Writer where
  pump := .start limits now
  mailbox := .ofCapacity limits.queueCapacity
  sink

/-! ### What has happened -/

/-- The frame that the queue accepts. -/
def Event.accepted? : Event → Option Frame
  | accept frame => some frame
  | _ => none

/-- The message that is handed to the sink. -/
def Event.handed? : Event → Option Outgoing
  | hand message => some message
  | _ => none

/-- The writer ends before it is done. -/
def Event.breaksOff : Event → Bool
  | lose _ | abort => true
  | _ => false

/-- The frames that the queue accepted in the course of a run. -/
def accepted (past : List (Moment Writer Event)) : List Frame :=
  past.filterMap (·.event.accepted?)

/-- The messages that were handed to the sink in the course of a run. -/
def handed (past : List (Moment Writer Event)) : List Outgoing :=
  past.filterMap (·.event.handed?)

/-- The frames among some messages. -/
def texts (messages : List Outgoing) : List Frame := messages.filterMap Outgoing.text?

variable {w w' start last : Writer} {event : Event} {past later : List (Moment Writer Event)}
variable {message : Outgoing} {deadline now : Nat}

theorem accepted_snoc : accepted (past ++ [⟨w, event, w'⟩]) =
    accepted past ++ event.accepted?.toList :=
  filterMap_snoc _ _ _

theorem handed_snoc : handed (past ++ [⟨w, event, w'⟩]) =
    handed past ++ event.handed?.toList :=
  filterMap_snoc _ _ _

theorem accepted_append : accepted (past ++ later) = accepted past ++ accepted later :=
  List.filterMap_append

theorem texts_append (messages more : List Outgoing) :
    texts (messages ++ more) = texts messages ++ texts more :=
  List.filterMap_append

theorem push_of_written (h : w.sink.offer.1 = .written) : w.push now deadline message =
    { w with
      pump := { w.pump with state := .waiting }, sink := w.sink.offer.2,
      written := message :: w.written } := by
  simp [push, h, OutboundPump.conclude]

theorem push_of_lost (h : w.sink.offer.1 = .failed ∨ w.sink.offer.1 = .stalled ∧ deadline ≤ now) :
    w.push now deadline message =
      { w with pump := { w.pump with state := .ended }, sink := w.sink.offer.2 } := by
  rcases h with h | ⟨h, hlate⟩
  · simp [push, h, OutboundPump.conclude]
  · simp [push, h, OutboundPump.conclude, hlate]

/-! ### What a step does -/

/-- **First in, first out.** What was in the queue or came into it is handed on or is in the queue
still, in the same order. -/
theorem Step.conserves (step : Step w event w') (receiving : w'.mailbox.receiving = true) :
    w.mailbox.receiving = true ∧
      texts event.handed?.toList ++ w'.mailbox.queue =
        w.mailbox.queue ++ event.accepted?.toList := by
  cases step with
  | accept accepts =>
    obtain ⟨-, hreceiving, rfl⟩ := Mailbox.eq_of_enqueue_eq_ok accepts
    exact ⟨hreceiving, rfl⟩
  | frame _ taken =>
    obtain ⟨hqueue, hrest⟩ := Mailbox.eq_of_take_eq_some taken
    rw [hrest] at receiving
    exact ⟨receiving, by simp [hqueue, Event.handed?, Event.accepted?, texts, Outgoing.text?]⟩
  | close => exact ⟨by simpa using receiving, by simp [Event.handed?, Event.accepted?, texts]⟩
  | abort | release => exact absurd receiving (by simp)
  | refuse | ping | wrote | lose | finish | client =>
    exact ⟨receiving, (List.append_nil _).symm⟩

/-- A writer that has ended does nothing more. -/
theorem Step.of_ended (step : Step w event w') (ended : w.pump.isEnded = true) :
    w'.pump.isEnded = true ∧ event.handed? = none := by
  cases step with
  | frame waiting | ping waiting | finish waiting | wrote waiting | lose waiting =>
    simp [OutboundPump.isEnded, waiting] at ended
  | abort running => exact absurd (ended.symm.trans running) (by simp)
  | accept | refuse | close | release | client => exact ⟨ended, rfl⟩

/-- A queue that accepts a frame has both its ends, before and after. -/
theorem Step.of_accepted (step : Step w event w') (accepting : event.accepted? ≠ none) :
    w.mailbox.isClosed = false ∧ w.mailbox.receiving = true ∧ w'.mailbox.receiving = true := by
  cases step with
  | accept accepts =>
    obtain ⟨hopen, hreceiving, rfl⟩ := Mailbox.eq_of_enqueue_eq_ok accepts
    exact ⟨hopen, hreceiving, hreceiving⟩
  | _ => exact absurd rfl accepting

theorem Step.accepted?_of_dropped (step : Step w event w')
    (dropped : w.mailbox.receiving = false ∨ w'.mailbox.receiving = false) :
    event.accepted? = none := by
  by_contra haccepts
  obtain ⟨-, hbefore, hafter⟩ := step.of_accepted haccepts
  simp [hbefore, hafter] at dropped

theorem Step.accepted?_of_closed (step : Step w event w') (closed : w.mailbox.isClosed = true) :
    event.accepted? = none := by
  by_contra haccepts
  obtain ⟨hopen, -, -⟩ := step.of_accepted haccepts
  exact absurd (hopen.symm.trans closed) (by simp)

/-- Only a writer that ends, or has ended, drops its end of the queue. -/
theorem Step.of_drops (step : Step w event w') (receiving : w.mailbox.receiving = true)
    (dropped : w'.mailbox.receiving = false) :
    w'.pump.isEnded = true ∧ event.handed? = none := by
  have hkept : w'.mailbox.receiving ≠ w.mailbox.receiving := by simp [receiving, dropped]
  cases step with
  | abort => exact ⟨rfl, rfl⟩
  | release ended => exact ⟨ended, rfl⟩
  | accept accepts =>
    obtain ⟨-, -, rfl⟩ := Mailbox.eq_of_enqueue_eq_ok accepts
    exact absurd rfl hkept
  | frame _ taken =>
    obtain ⟨-, hrest⟩ := Mailbox.eq_of_take_eq_some taken
    rw [hrest] at hkept
    exact absurd rfl hkept
  | close => exact absurd Mailbox.receiving_close hkept
  | refuse | ping | wrote | lose | finish | client => exact absurd rfl hkept

/-- What is handed on is being written until it has been written. -/
theorem Step.writes (step : Step w event w') (goesOn : event.breaksOff = false) :
    w'.written.reverse ++ w'.pump.pending =
      w.written.reverse ++ w.pump.pending ++ event.handed?.toList := by
  cases step with
  | frame waiting | ping waiting =>
    simp [OutboundPump.pending, waiting, OutboundPump.beginWrite, OutboundPump.beginPing,
      Event.handed?]
  | wrote writing written =>
    rw [push_of_written written]
    simp [OutboundPump.pending, writing, Event.handed?]
  | finish waiting => simp [OutboundPump.pending, waiting, Event.handed?]
  | lose | abort => exact absurd goesOn (by simp [Event.breaksOff])
  | accept | refuse | close | release | client => exact (List.append_nil _).symm

/-- A queue that is closed and empty stays so. -/
theorem Step.isFinished (step : Step w event w') (finished : w.mailbox.isFinished = true) :
    w'.mailbox.isFinished = true := by
  obtain ⟨hclosed, hempty⟩ := Mailbox.isFinished_iff.mp finished
  cases step with
  | accept accepts =>
    obtain ⟨hopen, -, -⟩ := Mailbox.eq_of_enqueue_eq_ok accepts
    exact absurd (hclosed.symm.trans hopen) (by simp)
  | frame _ taken =>
    obtain ⟨hqueue, -⟩ := Mailbox.eq_of_take_eq_some taken
    exact absurd (hempty.symm.trans hqueue) (by simp)
  | close => exact Mailbox.isFinished_iff.mpr (by simp [hempty])
  | abort | release => exact Mailbox.isFinished_iff.mpr (by simp [hclosed])
  | refuse | ping | wrote | lose | finish | client => exact finished

/-- A writer that breaks off has ended. -/
theorem Step.isEnded_of_breaksOff (step : Step w event w') (breaks : event.breaksOff = true) :
    w'.pump.isEnded = true := by
  cases step with
  | lose _ lost =>
    rw [push_of_lost lost]
    rfl
  | abort => rfl
  | _ => exact absurd breaks (by simp [Event.breaksOff])

/-- A writer that ends without having broken off has found its queue closed and empty. -/
theorem Step.of_ends (step : Step w event w') (running : w.pump.isEnded = false)
    (goesOn : event.breaksOff = false) (ended : w'.pump.isEnded = true) :
    w.mailbox.isFinished = true ∧ event.handed? = none := by
  cases step with
  | finish _ finished => exact ⟨finished, rfl⟩
  | lose | abort => exact absurd goesOn (by simp [Event.breaksOff])
  | wrote _ written =>
    rw [push_of_written written] at ended
    exact absurd ended (by simp [OutboundPump.isEnded])
  | frame | ping =>
    exact absurd ended (by simp [OutboundPump.isEnded, OutboundPump.beginWrite,
      OutboundPump.beginPing])
  | accept | refuse | close | release | client =>
    exact absurd (running.symm.trans ended) (by simp)

/-! ### The books of a writer -/

/-- The books of a writer after a run: as long as it holds its end of the queue, whatever was
accepted has been handed on or still waits, and it holds that end until it ends. -/
structure Books (past : List (Moment Writer Event)) (w : Writer) : Prop where
  balance : w.mailbox.receiving = true → texts (handed past) ++ w.mailbox.queue = accepted past
  sent : texts (handed past) <+: accepted past
  holding : w.mailbox.receiving = false → w.pump.isEnded = true

/-- A writer that has not broken off has written all that it was handed but for what it is writing,
and if it has ended, nothing is left in its queue and nothing will come. -/
structure Intact (past : List (Moment Writer Event)) (w : Writer) : Prop where
  written : w.written.reverse ++ w.pump.pending = handed past
  complete : w.pump.isEnded = true →
    w.mailbox.isFinished = true ∧ texts (handed past) = accepted past

theorem Books.step (h : Books past w) (step : Step w event w') :
    Books (past ++ [⟨w, event, w'⟩]) w' := by
  have hbalance : w'.mailbox.receiving = true →
      texts (handed (past ++ [⟨w, event, w'⟩])) ++ w'.mailbox.queue =
        accepted (past ++ [⟨w, event, w'⟩]) := by
    intro hreceiving
    obtain ⟨hreceived, hflow⟩ := step.conserves hreceiving
    rw [handed_snoc, accepted_snoc, texts_append, List.append_assoc, hflow, ← List.append_assoc,
      h.balance hreceived]
  cases hreceiving : w'.mailbox.receiving with
  | true => exact ⟨hbalance, ⟨_, hbalance hreceiving⟩, by simp [hreceiving]⟩
  | false =>
    -- Nothing comes or goes any more once the receiving end is dropped.
    obtain ⟨hended, hhanded⟩ : w'.pump.isEnded = true ∧ event.handed? = none := by
      cases hreceived : w.mailbox.receiving with
      | true => exact step.of_drops hreceived hreceiving
      | false => exact step.of_ended (h.holding hreceived)
    refine ⟨hbalance, ?_, fun _ => hended⟩
    rw [handed_snoc, accepted_snoc, step.accepted?_of_dropped (Or.inr hreceiving), hhanded]
    simpa using h.sent

theorem Intact.step (h : Intact past w) (books : Books past w) (step : Step w event w')
    (goesOn : event.breaksOff = false) : Intact (past ++ [⟨w, event, w'⟩]) w' := by
  refine ⟨?_, fun hended => ?_⟩
  · rw [handed_snoc, step.writes goesOn, h.written]
  · obtain ⟨hfinished, hhanded, hall⟩ : w.mailbox.isFinished = true ∧ event.handed? = none ∧
        texts (handed past) = accepted past := by
      cases hrunning : w.pump.isEnded with
      | true =>
        obtain ⟨hfinished, hall⟩ := h.complete hrunning
        exact ⟨hfinished, (step.of_ended hrunning).2, hall⟩
      | false =>
        -- The queue is empty at last, so everything has been handed on.
        obtain ⟨hfinished, hhanded⟩ := step.of_ends hrunning goesOn hended
        have hreceiving : w.mailbox.receiving = true := by
          by_contra hdropped
          have hheld := books.holding (by simpa using hdropped)
          exact absurd (hrunning.symm.trans hheld) (by simp)
        have hall := books.balance hreceiving
        rw [(Mailbox.isFinished_iff.mp hfinished).2, List.append_nil] at hall
        exact ⟨hfinished, hhanded, hall⟩
    have hclosed := (Mailbox.isFinished_iff.mp hfinished).1
    refine ⟨step.isFinished hfinished, ?_⟩
    rw [handed_snoc, accepted_snoc, hhanded, step.accepted?_of_closed hclosed]
    simpa using hall

variable {limits : HubConfig} {began : Nat} {sink : Sink}

theorem Run.books (run : Run (fresh limits began sink) past last) : Books past last := by
  induction run with
  | nil => exact ⟨fun _ => rfl, List.nil_prefix, nofun⟩
  | snoc _ step ih => exact ih.step step

theorem Run.intact (run : Run (fresh limits began sink) past last)
    (whole : ∀ m ∈ past, m.event.breaksOff = false) : Intact past last := by
  induction run with
  | nil => exact ⟨rfl, nofun⟩
  | @snoc past w w' event run step ih =>
    rw [List.forall_mem_append, List.forall_mem_singleton] at whole
    exact (ih whole.1).step (Run.books run) step whole.2

/-- A writer that has ended hands on nothing more. -/
theorem Run.handed_eq_nil (run : Run start past last) (ended : start.pump.isEnded = true) :
    handed past = [] := by
  have hsilent : handed past = [] ∧ last.pump.isEnded = true := by
    induction run with
    | nil => exact ⟨rfl, ended⟩
    | snoc _ step ih =>
      obtain ⟨hended, hhanded⟩ := step.of_ended ih.2
      refine ⟨?_, hended⟩
      rw [handed_snoc, ih.1, hhanded]
      rfl
  exact hsilent.1

/-! ### What a writer does at once -/

theorem offer_of_unlimited {s : Sink} (h : s.room = none) : s.offer = (.written, s) := by
  simp [Sink.offer, h]

/-- What a writer that waits does next. -/
theorem Step.of_next? {pump : OutboundPump} {mailbox : Mailbox} (waiting : w.pump.state = .waiting)
    (h : w.pump.next? now w.mailbox = some (pump, mailbox)) :
    ∃ event, Step w event { w with pump, mailbox } ∧ event.accepted? = none ∧
      event.breaksOff = false := by
  unfold OutboundPump.next? at h
  split at h
  · rename_i frame rest htake
    obtain ⟨rfl, rfl⟩ := Prod.mk.inj (Option.some_inj.mp h)
    exact ⟨_, .frame waiting htake, rfl, rfl⟩
  · split at h
    · rename_i hfinished
      obtain ⟨rfl, rfl⟩ := Prod.mk.inj (Option.some_inj.mp h)
      exact ⟨_, .finish waiting hfinished, rfl, rfl⟩
    · split at h
      · rename_i hdue
        obtain ⟨rfl, rfl⟩ := Prod.mk.inj (Option.some_inj.mp h)
        exact ⟨_, .ping waiting hdue, rfl, rfl⟩
      · cases h

/-- What a writer does with the message that it is writing. -/
theorem Step.of_push (writing : w.pump.state = .writing message deadline)
    (moves : (w.push now deadline message).pump.state ≠ w.pump.state) :
    ∃ event, Step w event (w.push now deadline message) ∧ event.accepted? = none ∧
      (w.sink.room = none → event.breaksOff = false) := by
  cases hoffer : w.sink.offer.1 with
  | written => exact ⟨_, .wrote writing hoffer, rfl, fun _ => rfl⟩
  | failed =>
    refine ⟨_, .lose writing (Or.inl hoffer), rfl, fun hroom => ?_⟩
    rw [offer_of_unlimited hroom] at hoffer
    cases hoffer
  | stalled =>
    by_cases hlate : deadline ≤ now
    · refine ⟨_, .lose writing (Or.inr ⟨hoffer, hlate⟩), rfl, fun hroom => ?_⟩
      rw [offer_of_unlimited hroom] at hoffer
      cases hoffer
    · exact absurd (by simp [push, hoffer, OutboundPump.conclude, hlate]) moves

theorem room_push (h : w.sink.room = none) : (w.push now deadline message).sink.room = none := by
  rw [push, offer_of_unlimited h]
  exact h

/-- What a writer does next is one of the steps that it may take. It puts nothing into the queue,
and it does not break off if the sink has no limit. -/
theorem Step.of_step? (h : w.step? now = some w') :
    ∃ event, Step w event w' ∧ event.accepted? = none ∧
      (w.sink.room = none → event.breaksOff = false ∧ w'.sink.room = none) := by
  unfold step? at h
  split at h
  · exact absurd h (by simp)
  · rename_i hwaiting
    obtain ⟨⟨pump, mailbox⟩, hnext, rfl⟩ := Option.map_eq_some_iff.mp h
    obtain ⟨event, hstep, hnone, hgoesOn⟩ := Step.of_next? hwaiting hnext
    exact ⟨event, hstep, hnone, fun hroom => ⟨hgoesOn, hroom⟩⟩
  · rename_i message deadline hwriting
    dsimp only at h
    split at h
    · exact absurd h (by simp)
    · rename_i hmoves
      obtain rfl := Option.some_inj.mp h
      obtain ⟨event, hstep, hnone, hgoesOn⟩ := Step.of_push hwriting hmoves
      exact ⟨event, hstep, hnone, fun hroom => ⟨hgoesOn hroom, room_push hroom⟩⟩

/-- What a writer does at once is a run. -/
theorem exists_run (now steps : Nat) (w : Writer) :
    ∃ more, Run w more (w.advance now steps) ∧ accepted more = [] ∧
      (w.sink.room = none → ∀ m ∈ more, m.event.breaksOff = false) := by
  induction steps generalizing w with
  | zero => exact ⟨[], .nil, rfl, by simp⟩
  | succ steps ih =>
    cases hstep? : w.step? now with
    | none =>
      rw [advance, hstep?]
      exact ⟨[], .nil, rfl, by simp⟩
    | some w' =>
      obtain ⟨event, hstep, hnone, hsink⟩ := Step.of_step? hstep?
      obtain ⟨more, hrun, haccepted, hwhole⟩ := ih w'
      have hfirst : Run w [⟨w, event, w'⟩] w' := .snoc .nil hstep
      rw [advance, hstep?]
      refine ⟨[⟨w, event, w'⟩] ++ more, hfirst.append hrun, ?_, fun hroom => ?_⟩
      · rw [accepted_append, haccepted]
        simp [accepted, hnone]
      · obtain ⟨hgoesOn, hroom'⟩ := hsink hroom
        simpa [hgoesOn] using hwhole hroom'

/-- How many steps a writer is from its end, if the queue is closed and the sink has no limit. -/
def remaining (w : Writer) : Nat :=
  match w.pump.state with
  | .ended => 0
  | .waiting => 2 * w.mailbox.queue.length + 1
  | .writing _ _ => 2 * w.mailbox.queue.length + 2

/-- Each step brings a writer nearer to its end. -/
theorem exists_step?_of_closed (closed : w.mailbox.isClosed = true) (unlimited : w.sink.room = none)
    (running : w.pump.isEnded = false) :
    ∃ w', w.step? now = some w' ∧ w'.remaining < w.remaining ∧ w'.mailbox.isClosed = true ∧
      w'.sink.room = none := by
  cases hstate : w.pump.state with
  | ended => simp [OutboundPump.isEnded, hstate] at running
  | writing message deadline =>
    refine ⟨w.push now deadline message, ?_, ?_, closed, room_push unlimited⟩
    · simp [step?, hstate, push, offer_of_unlimited unlimited, OutboundPump.conclude]
    · simp [remaining, hstate, push, offer_of_unlimited unlimited, OutboundPump.conclude]
  | waiting =>
    cases hqueue : w.mailbox.queue with
    | nil =>
      refine ⟨{ w with pump := { w.pump with state := .ended } }, ?_, ?_, closed, unlimited⟩
      · simp [step?, hstate, OutboundPump.next?, Mailbox.take, hqueue, Mailbox.isFinished, closed]
      · simp [remaining, hstate]
    | cons frame rest =>
      refine ⟨{ w with
        pump := w.pump.beginWrite now (.text frame), mailbox := { w.mailbox with queue := rest } },
        ?_, ?_, closed, unlimited⟩
      · simp [step?, hstate, OutboundPump.next?, Mailbox.take, hqueue]
      · simp [remaining, hstate, hqueue, OutboundPump.beginWrite]
        omega

/-- Once its queue is closed, a writer comes to its end if it may write all that is left. -/
theorem isEnded_advance (closed : w.mailbox.isClosed = true) (unlimited : w.sink.room = none)
    {steps : Nat} (enough : w.remaining ≤ steps) : (w.advance now steps).pump.isEnded = true := by
  induction steps generalizing w with
  | zero =>
    cases hstate : w.pump.state <;> simp [remaining, hstate] at enough
    simp [advance, OutboundPump.isEnded, hstate]
  | succ steps ih =>
    cases hrunning : w.pump.isEnded with
    | true =>
      have hnone : w.step? now = none := by simp_all [step?, OutboundPump.isEnded]
      rw [advance, hnone]
      exact hrunning
    | false =>
      obtain ⟨w', hstep, hless, hclosed, hroom⟩ := exists_step?_of_closed closed unlimited hrunning
      rw [advance, hstep]
      exact ih hclosed hroom (by omega)

theorem isEnded_run (closed : w.mailbox.isClosed = true) (unlimited : w.sink.room = none) :
    (w.run now).pump.isEnded = true := by
  refine isEnded_advance closed unlimited ?_
  unfold remaining
  split <;> omega

/-! ### The whole run -/

/-- **Writing.** Take any run of a writer and of those at the other ends of its queue and of its
sink. The frames that are handed to the sink are a first part of those that the queue has accepted,
so they come in the same order and once each. Once a write has failed or taken too long, or the
writer has been stopped, nothing is handed to the sink any more. As long as nothing of that kind
happens, a writer ends only when its queue is closed and empty, and then it has written every frame
that was ever accepted; and once the queue is closed and the sink has room for everything, the
writer does come to that end. -/
theorem Run.preserves_queue (run : Run (fresh limits began sink) past last) :
    texts (handed past) <+: accepted past ∧
    (∀ earlier m later, past = earlier ++ m :: later → m.event.breaksOff = true →
      handed later = []) ∧
    ((∀ m ∈ past, m.event.breaksOff = false) →
      (last.pump.isEnded = true →
        last.mailbox.isFinished = true ∧ texts last.written.reverse = accepted past) ∧
      (last.mailbox.isClosed = true → last.sink.room = none → ∀ now,
        (last.run now).pump.isEnded = true ∧
          texts (last.run now).written.reverse = accepted past)) := by
  have hended : ∀ {past last}, Run (fresh limits began sink) past last →
      (∀ m ∈ past, m.event.breaksOff = false) → last.pump.isEnded = true →
      last.mailbox.isFinished = true ∧ texts last.written.reverse = accepted past := by
    intro past last run whole ended
    have hintact := run.intact whole
    obtain ⟨hfinished, hall⟩ := hintact.complete ended
    have hwritten := hintact.written
    rw [OutboundPump.pending_of_ended ended, List.append_nil] at hwritten
    exact ⟨hfinished, hwritten ▸ hall⟩
  refine ⟨(Run.books run).sent, ?_, fun whole => ⟨hended run whole, fun hclosed hroom now => ?_⟩⟩
  · rintro earlier m later rfl hbreaks
    obtain ⟨-, hstep, hrest⟩ := run.at_moment
    exact Run.handed_eq_nil hrest (hstep.isEnded_of_breaksOff hbreaks)
  · obtain ⟨more, hmore, hnone, hwhole⟩ :=
      exists_run now (2 * last.mailbox.queue.length + 6) last
    have hend : (last.run now).pump.isEnded = true := isEnded_run hclosed hroom
    have hall := hended (run.append hmore)
      (List.forall_mem_append.mpr ⟨whole, hwhole hroom⟩) hend
    rw [accepted_append, hnone, List.append_nil] at hall
    exact ⟨hend, hall.2⟩

/-- Two frames with a ping between them. -/
def pingBetween : List Event :=
  [.accept "first", .accept "second", .refuse "third" .full, .hand (.text "first"),
    .wrote (.text "first"), .hand .ping, .close, .wrote .ping, .hand (.text "second"),
    .wrote (.text "second"), .finish]

/-- When the first frame has been written a ping is due, and it goes out although the second frame
waits. Both frames have been written when the writer ends. -/
theorem Run.preserves_queue_of_pingBetween :
    ∃ past last, Run (fresh { queueCapacity := 2 } 0 {}) past last ∧
      past.map (·.event) = pingBetween ∧ (∀ m ∈ past, m.event.breaksOff = false) ∧
      last.pump.isEnded = true ∧ texts last.written.reverse = ["first", "second"] := by
  obtain ⟨past, last, run, hevents, hended⟩ : ∃ past last,
      Run (fresh { queueCapacity := 2 } 0 {}) past last ∧ past.map (·.event) = pingBetween ∧
        last.pump.isEnded = true := by
    have start : Run (fresh { queueCapacity := 2 } 0 {}) [] _ := .nil
    have hqueued := ((start.snoc (@Step.accept _ "first" _ rfl)).snoc
      (@Step.accept _ "second" _ rfl)).snoc (@Step.refuse _ "third" .full rfl)
    have hfirst := (hqueued.snoc (@Step.frame _ _ _ 1 rfl rfl)).snoc (@Step.wrote _ _ _ 2 rfl rfl)
    have hping := (hfirst.snoc (@Step.ping _ 45000 rfl (by decide))).snoc Step.close
    have hsecond := (hping.snoc (@Step.wrote _ _ _ 45001 rfl rfl)).snoc
      (@Step.frame _ _ _ 45002 rfl rfl)
    exact ⟨_, _, (hsecond.snoc (@Step.wrote _ _ _ 45003 rfl rfl)).snoc (.finish rfl rfl), rfl, rfl⟩
  have hwhole : ∀ m ∈ past, m.event.breaksOff = false := by
    have hall : ∀ event ∈ past.map (·.event), event.breaksOff = false := by
      rw [hevents]
      decide
    exact fun m hm => hall _ (List.mem_map_of_mem hm)
  have haccepted : accepted past = ["first", "second"] := by
    have hmap : accepted past = (past.map (·.event)).filterMap Event.accepted? := by
      rw [List.filterMap_map]
      rfl
    rw [hmap, hevents]
    rfl
  obtain ⟨-, -, hwritten⟩ := run.preserves_queue
  exact ⟨past, last, run, hevents, hwhole, hended, haccepted ▸ ((hwritten hwhole).1 hended).2⟩

end Writer

end RoomRelay
