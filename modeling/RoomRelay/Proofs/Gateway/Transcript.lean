import RoomRelay.Proofs.Gateway.Execution
import RoomRelay.Proofs.Gateway.Opening

/-!
# Transcripts of routines

Between two calls of a routine other routines may have come to work, so that nobody can say what
the routine does from the gateway in which it began. What can be said is how its calls and the
replies to them go together. They are its transcript, which determines what is left to do.

## Main definitions

* `Exchange` — a call with its reply
* `Routine.Follows` — a transcript of a routine, and what is left behind it
* `Call.IsSilent`, `Sends` — calls that no room hears of, and the transcript of a message sent

## Main results

* `Routine.Follows.of_bind`, `Routine.Follows.within` — transcripts along `>>=`
* `follows_deliver` — the transcripts of sending a message
-/

namespace RoomRelay

variable {α β : Type}

/-- A call with the reply that it got. -/
structure Exchange where
  /-- The call. -/
  request : Call
  /-- The reply. -/
  reply : request.Reply

namespace Routine

/-- The first calls of a routine with their replies, and what is left of the routine then. -/
inductive Follows : Routine α → List Exchange → Routine α → Prop
  | refl (r : Routine α) : Follows r [] r
  | call {request : Call} {next : request.Reply → Routine α} {reply : request.Reply}
    {log : List Exchange} {rest : Routine α} (more : Follows (next reply) log rest) :
    Follows (.call request next) (⟨request, reply⟩ :: log) rest

variable {r rest : Routine α} {log : List Exchange}

theorem Follows.snoc {request : Call} {next : request.Reply → Routine α}
    (h : Follows r log (.call request next)) (reply : request.Reply) :
    Follows r (log ++ [⟨request, reply⟩]) (next reply) := by
  generalize hrest : Routine.call request next = rest at h
  induction h with
  | refl r =>
    subst hrest
    exact .call (.refl _)
  | call _ ih => exact .call (ih hrest)

theorem Follows.of_done {a : α} (h : Follows (done a) log rest) : log = [] ∧ rest = done a := by
  cases h
  exact ⟨rfl, rfl⟩

/-- A transcript of a routine and what follows is one of the routine alone, or it goes on where the
routine has ended. -/
theorem Follows.of_bind {f : α → Routine β} {rest : Routine β} (h : Follows (r >>= f) log rest) :
    (∃ left, r.Follows log left ∧ (∀ a, left ≠ done a) ∧ rest = left >>= f) ∨
    ∃ a front back, log = front ++ back ∧ r.Follows front (done a) ∧ (f a).Follows back rest := by
  induction r generalizing log with
  | done a => exact Or.inr ⟨a, [], log, rfl, .refl _, h⟩
  | call request next ih =>
    cases h with
    | refl => exact Or.inl ⟨_, .refl _, nofun, rfl⟩
    | call more =>
      obtain ⟨left, hleft, hopen, rfl⟩ | ⟨a, front, back, rfl, hfront, hback⟩ := ih _ more
      · exact Or.inl ⟨left, .call hleft, hopen, rfl⟩
      · exact Or.inr ⟨a, _ :: front, back, rfl, .call hfront, hback⟩

/-- What may be said of all calls of a routine and of its results holds of a transcript and of what
is left. -/
theorem Follows.within {calls : Call → Prop} {results : α → Prop} (h : r.Follows log rest)
    (hw : r.Within calls results) : (∀ e ∈ log, calls e.request) ∧ rest.Within calls results := by
  induction h with
  | refl => exact ⟨by simp, hw⟩
  | call more ih =>
    obtain ⟨hlog, hrest⟩ := ih (hw.2 _)
    exact ⟨List.forall_mem_cons.mpr ⟨hw.1, hlog⟩, hrest⟩

end Routine

open Routine

/-! ### Messages in transcripts -/

/-- The call stores no message, tells no room anything, and does not note that a room was told. -/
def Call.IsSilent : Call → Prop
  | storage (.createMessage _) | broadcast _ => False
  | note n => n ≠ .messageBroadcast
  | _ => True

/-- The stores have answered the call, and a message is stored as it was drafted. -/
def Exchange.Genuine : Exchange → Prop
  | ⟨.storage (.createMessage draft), reply⟩ => ∃ id now, reply = .ok (.ofDraft draft id now)
  | ⟨.storage _, reply⟩ => ∃ answer, reply = .ok answer
  | _ => True

/-- The transcript of a message that is sent: after some silent calls the message is stored, then
the room is noted to be active, then the room is told, nobody being left out, and then there are
only notes. -/
inductive Sends (draft : MessageDraft) (message : Message) : List Exchange → Prop
  | intro {looked notes : List Exchange} {report : BroadcastReport}
    (silent : ∀ e ∈ looked, e.request.IsSilent) (noted : ∀ e ∈ notes, e.request.IsNote) :
    Sends draft message (looked ++
      ⟨.storage (.createMessage draft), .ok message⟩ ::
      ⟨.storage (.touch message.roomId), .ok ()⟩ ::
      ⟨.broadcast (messageEnvelope message), report⟩ :: notes)

theorem within_noteTimes {calls : Call → Prop} {n : Note} (h : calls (.note n)) (count : Nat) :
    (noteTimes n count).Within calls fun _ => True := by
  induction count with
  | zero => exact trivial
  | succ count ih => exact ⟨h, fun _ => ih⟩

variable {told : Message → Routine α} {refused : ServiceFailure → Routine α}
variable {senderId : String} {request : SendMessage} {log : List Exchange} {rest : Routine α}

theorem Routine.bind_ne_done {r : Routine α} (h : ∀ a, r ≠ done a) (f : α → Routine β) (b : β) :
    r >>= f ≠ done b := by
  cases r with
  | done a => exact absurd rfl (h a)
  | call request next => exact nofun

/-- Once a message is stored, its room is noted to be active and told of it, once, before anything
else comes. -/
theorem follows_announce {message : Message} (h : (announce told refused message).Follows log rest)
    (genuine : ∀ e ∈ log, e.Genuine) {looked : List Exchange} {draft : MessageDraft}
    (silent : ∀ e ∈ looked, e.request.IsSilent) :
    ∃ front back tail, log = front ++ back ∧
      Sends draft message
        (looked ++ ⟨.storage (.createMessage draft), .ok message⟩ :: (front ++ tail)) ∧
      ((tail = [] ∧ (told message).Follows back rest) ∨ (back = [] ∧ ∀ a, rest ≠ done a)) := by
  -- As long as the room has not been told, the rest of the transcript is still to come.
  have htold : Sends draft message (looked ++ ⟨.storage (.createMessage draft), .ok message⟩ ::
      [⟨.storage (.touch message.roomId), .ok ()⟩,
        ⟨.broadcast (messageEnvelope message), ({} : BroadcastReport)⟩]) :=
    .intro silent (List.forall_mem_nil _)
  cases h with
  | refl => exact ⟨[], [], _, rfl, htold, Or.inr ⟨rfl, nofun⟩⟩
  | call more =>
    -- The stores answer, so that the room is told next.
    rw [List.forall_mem_cons] at genuine
    obtain ⟨⟨_, rfl⟩, -⟩ := genuine
    cases more with
    | refl => exact ⟨[_], [], _, rfl, htold, Or.inr ⟨rfl, nofun⟩⟩
    | call more =>
      obtain ⟨left, hleft, hopen, rfl⟩ | ⟨_, notes, back, rfl, hnotes, hback⟩ := more.of_bind
      · refine ⟨_ :: _ :: _, [], [], (List.append_nil _).symm, ?_, Or.inr ⟨rfl, ?_⟩⟩
        · rw [List.append_nil]
          exact .intro silent (hleft.within (within_noteTimes trivial _)).1
        · exact bind_ne_done hopen _
      · refine ⟨_ :: _ :: notes, back, [], rfl, ?_, Or.inl ⟨rfl, hback⟩⟩
        rw [List.append_nil]
        exact .intro silent (hnotes.within (within_noteTimes trivial _)).1

/-- A request to send a message is refused after some silent calls, or the message is stored and its
room is told. -/
theorem follows_deliver (h : (deliver told refused senderId request).Follows log rest)
    (genuine : ∀ e ∈ log, e.Genuine) :
    (∃ front back, log = front ++ back ∧ (∀ e ∈ front, e.request.IsSilent) ∧
      ((∃ failure, (refused failure).Follows back rest) ∨ (back = [] ∧ ∀ a, rest ≠ done a))) ∨
    ∃ message front back tail, log = front ++ back ∧
      ⟨.storage (.createMessage (request.draft senderId)), .ok message⟩ ∈ front ∧
      Sends (request.draft senderId) message (front ++ tail) ∧
      ((tail = [] ∧ (told message).Follows back rest) ∨ (back = [] ∧ ∀ a, rest ≠ done a)) := by
  unfold deliver at h
  split at h
  · exact Or.inl ⟨[], log, rfl, List.forall_mem_nil _, Or.inl ⟨_, h⟩⟩
  · cases h with
    | refl => exact Or.inl ⟨[], [], rfl, List.forall_mem_nil _, Or.inr ⟨rfl, nofun⟩⟩
    | @call _ _ reply log _ more =>
      have hfind : ∀ e ∈ [(⟨.storage (.findRoom request.roomId), reply⟩ : Exchange)],
          e.request.IsSilent := List.forall_mem_singleton.mpr trivial
      rw [List.forall_mem_cons] at genuine
      rcases reply with failure | _ | room
      · exact Or.inl ⟨[_], log, rfl, hfind, Or.inl ⟨_, more⟩⟩
      · exact Or.inl ⟨[_], log, rfl, hfind, Or.inl ⟨_, more⟩⟩
      · cases more with
        | refl => exact Or.inl ⟨[_], [], rfl, hfind, Or.inr ⟨rfl, nofun⟩⟩
        | call more =>
          rw [List.forall_mem_cons] at genuine
          obtain ⟨-, ⟨id, now, rfl⟩, genuine⟩ := genuine
          obtain ⟨front, back, tail, rfl, hsends, hleft⟩ := follows_announce more genuine hfind
          exact Or.inr ⟨_, _ :: _ :: front, back, tail, rfl, by simp, hsends, hleft⟩

end RoomRelay
