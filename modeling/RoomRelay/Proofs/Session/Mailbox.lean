import RoomRelay.Session.Mailbox

/-!
# What is done to a queue

A frame that is offered to a queue is put at its end, or refused because the queue is full or one of
its ends is gone. A frame that is taken stood first. Closing a queue and dropping its receiving end
change nothing else about it.

## Main definitions

* `Mailbox.HasPlace`, `Mailbox.IsFull`, `Mailbox.IsCut` — what a queue makes of a frame

## Main results

* `Mailbox.fault?_eq_none_iff` and its companions — when a frame is refused, and why
* `Mailbox.eq_of_enqueue_eq_ok`, `Mailbox.eq_of_take_eq_some` — what became of a queue
-/

namespace RoomRelay.Mailbox

variable {m m' : Mailbox} {frame : Frame}

/-! ### What a queue makes of a frame -/

/-- Both ends are there and there is a place. -/
def HasPlace (m : Mailbox) : Prop :=
  m.sending = true ∧ m.receiving = true ∧ m.queue.length < m.capacity

/-- Both ends are there and there is no place. -/
def IsFull (m : Mailbox) : Prop :=
  m.sending = true ∧ m.receiving = true ∧ m.capacity ≤ m.queue.length

/-- One of the ends is gone. -/
def IsCut (m : Mailbox) : Prop := m.sending = false ∨ m.receiving = false

instance (m : Mailbox) : Decidable m.HasPlace := inferInstanceAs (Decidable (_ ∧ _))

instance (m : Mailbox) : Decidable m.IsFull := inferInstanceAs (Decidable (_ ∧ _))

instance (m : Mailbox) : Decidable m.IsCut := inferInstanceAs (Decidable (_ ∨ _))

theorem fault?_eq_none_iff : m.fault? = none ↔ m.HasPlace := by
  unfold fault? HasPlace
  cases m.sending <;> cases m.receiving <;> simp

theorem fault?_eq_full_iff : m.fault? = some .full ↔ m.IsFull := by
  unfold fault? IsFull
  cases m.sending <;> cases m.receiving <;> simp

theorem fault?_eq_closed_iff : m.fault? = some .closed ↔ m.IsCut := by
  unfold fault? IsCut
  cases m.sending <;> cases m.receiving <;> simp

theorem IsFull.not_hasPlace (h : m.IsFull) : ¬ m.HasPlace := fun hp =>
  absurd hp.2.2 (Nat.not_lt.mpr h.2.2)

theorem IsCut.not_hasPlace (h : m.IsCut) : ¬ m.HasPlace := by
  rintro ⟨hsending, hreceiving, -⟩
  simp [IsCut, hsending, hreceiving] at h

theorem IsCut.not_isFull (h : m.IsCut) : ¬ m.IsFull := by
  rintro ⟨hsending, hreceiving, -⟩
  simp [IsCut, hsending, hreceiving] at h

theorem enqueue_of_fault?_eq_none (h : m.fault? = none) :
    m.enqueue frame = .ok { m with queue := m.queue ++ [frame] } := by
  simp [enqueue, h]

theorem enqueue_of_fault?_eq_some {fault : EnqueueFault} (h : m.fault? = some fault) :
    m.enqueue frame = .error fault := by
  simp [enqueue, h]

/-- A frame is accepted only while both ends of the queue are there. -/
theorem eq_of_enqueue_eq_ok (h : m.enqueue frame = .ok m') :
    m.isClosed = false ∧ m.receiving = true ∧ m' = { m with queue := m.queue ++ [frame] } := by
  cases hfault : m.fault? with
  | some fault =>
    rw [enqueue_of_fault?_eq_some hfault] at h
    cases h
  | none =>
    rw [enqueue_of_fault?_eq_none hfault] at h
    obtain rfl := Except.ok.inj h
    obtain ⟨hsending, hreceiving, -⟩ := fault?_eq_none_iff.mp hfault
    exact ⟨by simp [isClosed, hsending], hreceiving, rfl⟩

/-! ### What is taken -/

/-- What is taken stood first in the queue. -/
theorem eq_of_take_eq_some (h : m.take = some (frame, m')) :
    m.queue = frame :: m'.queue ∧ m' = { m with queue := m'.queue } := by
  unfold take at h
  split at h
  · cases h
  · next hqueue =>
    obtain ⟨rfl, rfl⟩ := Prod.mk.inj (Option.some.inj h)
    exact ⟨hqueue, rfl⟩

theorem isClosed_of_take (h : m.take = some (frame, m')) : m'.isClosed = m.isClosed := by
  rw [(eq_of_take_eq_some h).2]
  rfl

theorem isFinished_iff : m.isFinished = true ↔ m.isClosed = true ∧ m.queue = [] := by
  simp [isFinished]

/-! ### What closing and dropping leave -/

@[simp] theorem isClosed_close : m.close.1.isClosed = true := by
  unfold close isClosed
  split <;> simp_all

@[simp] theorem receiving_close : m.close.1.receiving = m.receiving := by
  unfold close
  split <;> rfl

@[simp] theorem close_close : m.close.1.close.1 = m.close.1 := by
  unfold close
  split <;> simp_all

@[simp] theorem queue_close : m.close.1.queue = m.queue := by
  unfold close
  split <;> rfl

@[simp] theorem isClosed_dropReceiver : m.dropReceiver.isClosed = m.isClosed := rfl

@[simp] theorem sending_dropReceiver : m.dropReceiver.sending = m.sending := rfl

@[simp] theorem tornDown_dropReceiver : m.dropReceiver.tornDown = m.tornDown := rfl

@[simp] theorem queue_dropReceiver : m.dropReceiver.queue = [] := rfl

@[simp] theorem receiving_dropReceiver : m.dropReceiver.receiving = false := rfl

end RoomRelay.Mailbox
