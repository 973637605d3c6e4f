/-!
# The queue of a connection

Frames for a client wait in a queue of limited length until the connection can write them. Whoever
sends never waits: a frame that finds no place is refused. Closing the queue refuses further frames
and raises a signal for the connection; frames that were accepted before can still be taken.

## Main definitions

* `Frame` — the text of a frame
* `Mailbox`, `Mailbox.ofCapacity` — a queue with its two ends
* `Mailbox.enqueue`, `Mailbox.take`, `Mailbox.close`, `Mailbox.dropReceiver`
* `EnqueueFault` — why a frame is refused
-/

namespace RoomRelay

/-- The text of a frame. -/
abbrev Frame := String

/-- Why a frame is refused. -/
inductive EnqueueFault
  /-- As many frames wait as may. -/
  | full
  /-- An end of the queue is gone. -/
  | closed
  deriving DecidableEq

/-- The wording. -/
def EnqueueFault.message : EnqueueFault → String
  | full => "outbound queue full"
  | closed => "session closed"

/-- A queue of frames with its two ends. -/
structure Mailbox where
  /-- How many frames may wait. -/
  capacity : Nat
  /-- There is room for one. -/
  capacity_pos : 0 < capacity
  /-- The frames that wait, first the one to be taken next. -/
  queue : List Frame := []
  /-- The sending end is there. -/
  sending : Bool := true
  /-- The receiving end is there. -/
  receiving : Bool := true
  /-- The signal to tear the connection down is up. -/
  tornDown : Bool := false

namespace Mailbox

/-- An empty queue; a capacity of zero counts as one. -/
def ofCapacity (capacity : Nat) : Mailbox where
  capacity := max capacity 1
  capacity_pos := Nat.lt_of_lt_of_le Nat.zero_lt_one (Nat.le_max_right capacity 1)

/-- The queue has been closed. -/
def isClosed (m : Mailbox) : Bool := !m.sending

/-- Why a frame would be refused now. -/
def fault? (m : Mailbox) : Option EnqueueFault :=
  if !m.sending || !m.receiving then some .closed
  else if m.capacity ≤ m.queue.length then some .full
  else none

/-- Puts a frame at the end of the queue, or says why not. -/
def enqueue (m : Mailbox) (frame : Frame) : Except EnqueueFault Mailbox :=
  match m.fault? with
  | some fault => .error fault
  | none => .ok { m with queue := m.queue ++ [frame] }

/-- Takes the frame that has waited longest. -/
def take (m : Mailbox) : Option (Frame × Mailbox) :=
  match m.queue with
  | [] => none
  | frame :: rest => some (frame, { m with queue := rest })

/-- The receiver learns that no frame will come: the queue is closed and empty. -/
def isFinished (m : Mailbox) : Bool := m.isClosed && m.queue.isEmpty

/-- Closes the queue and says whether it was open. -/
def close (m : Mailbox) : Mailbox × Bool :=
  if m.sending then ({ m with sending := false, tornDown := true }, true) else (m, false)

/-- Drops the receiving end with the frames that wait. -/
def dropReceiver (m : Mailbox) : Mailbox := { m with receiving := false, queue := [] }

end Mailbox

end RoomRelay
