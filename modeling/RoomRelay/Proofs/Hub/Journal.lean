import RoomRelay.Proofs.Hub.Standing

/-!
# A hub with a journal

Closing a session answers whether the session was open. The hub does not look at these answers; to
speak about them it is given a journal, in which it writes down what each call to close a session
answered. The journal changes nothing about the hub. It shows that the hub never opens a session and
never says of two calls that they closed the same one.

## Main definitions

* `Hub.Journal`, `Hub.Journal.Step`, `Hub.Journal.Run` — a hub that writes down these answers
* `Hub.Journal.balance` — how often a session has been closed, and whether it is still open
* `Hub.Journal.play` — a run computed from acts

## Main results

* `Hub.Journal.Run.onHub`, `Hub.Journal.Run.exists_of_hub` — the journal changes nothing
* `Hub.Journal.Step.balance_eq` — no act of the hub changes the balance of a session
-/

namespace RoomRelay.Hub

variable {hub hub' : Hub} {id other : SessionId} {session : Session} {act : Act}

/-- A hub with the sessions that it called to close and what they answered, earliest first. -/
structure Journal where
  hub : Hub := {}
  answers : List (SessionId × Bool) := []

namespace Journal

variable {j j' : Journal}

/-- What a session answered whenever it was called to close. -/
def answersOf (j : Journal) (id : SessionId) : List Bool :=
  j.answers.filterMap fun answer => if answer.1 = id then some answer.2 else none

def close (j : Journal) (id : SessionId) : Journal :=
  ⟨(j.hub.close id).2, j.answers ++ [(id, (j.hub.close id).1)]⟩

def remove (j : Journal) (id : SessionId) : Option Journal :=
  (j.hub.registry.remove id).map fun (_, registry) => { j with hub.registry := registry }.close id

def enroll (j : Journal) (session : Session) : Journal :=
  if j.hub.registry.closed then j.close session.id
  else
    match j.hub.registry.insert session with
    | (none, registry) => { j with hub.registry := registry }
    | (some evicted, registry) => { j with hub.registry := registry }.close evicted.id

def withdraw (j : Journal) (session : Session) : Journal := (j.remove session.id).getD j

def offer (frame : Frame) (j : Journal) (session : Session) : Journal :=
  match j.hub.enqueue session.id frame with
  | .ok hub => { j with hub }
  | .error .full => (j.remove session.id).getD j
  | .error .closed => j

def broadcastTo (j : Journal) (members : List Session) (envelope : Envelope) : Journal :=
  (members.filter (some ·.id ≠ envelope.exclude)).foldl (offer envelope.frame) j

def drain (j : Journal) : Journal :=
  j.hub.registry.drain.1.foldl (fun j session => j.close session.id)
    { j with hub.registry := j.hub.registry.drain.2 }

end Journal

/-- The act closes nobody. -/
def Act.Spares : Act → Prop
  | join _ _ | leave _ _ | take _ _ | handle _ => True
  | enroll _ | withdraw _ | broadcast _ | drain => False

namespace Journal

variable {j j' : Journal}

/-- One act on a hub with a journal. -/
inductive Step : Journal → Act → Journal → Prop
  | enroll {j : Journal} {session : Session} : Step j (.enroll session) (j.enroll session)
  | withdraw {j : Journal} {session : Session} : Step j (.withdraw session) (j.withdraw session)
  | broadcast {j : Journal} {envelope : Envelope} {order : List Session}
    (perm : order.Perm (j.hub.registry.members envelope.roomId)) :
    Step j (.broadcast envelope) (j.broadcastTo order envelope)
  | drain {j : Journal} : Step j .drain j.drain
  | plain {j : Journal} {act : Act} {hub : Hub} (step : Hub.Step j.hub act hub)
    (spares : act.Spares) : Step j act { j with hub }

/-- A run of a hub with a journal. -/
abbrev Run (start : Journal) (past : List (Moment Journal Act)) (last : Journal) : Prop :=
  Trace Step start past last

/-- The moments of a run without the journal. -/
def unwritten (past : List (Moment Journal Act)) : List (Moment Hub Act) :=
  past.filterMap (Moment.seen Journal.hub some)

variable {start last : Journal} {written : List (Moment Journal Act)}

theorem unwritten_snoc {j j' : Journal} :
    unwritten (written ++ [⟨j, act, j'⟩]) = unwritten written ++ [⟨j.hub, act, j'.hub⟩] := by
  simp [unwritten, Moment.seen]

/-! ### The journal changes nothing -/

theorem map_hub_remove : (j.remove id).map Journal.hub = j.hub.remove id := by
  unfold remove Hub.remove
  rw [Option.map_map]
  rfl

theorem hub_getD_remove : ((j.remove id).getD j).hub = (j.hub.remove id).getD j.hub := by
  rw [← map_hub_remove]
  cases j.remove id <;> rfl

theorem hub_enroll : (j.enroll session).hub = (j.hub.enroll session).2 := by
  unfold enroll Hub.enroll
  split
  · rfl
  · generalize j.hub.registry.insert session = inserted
    obtain ⟨evicted?, registry⟩ := inserted
    cases evicted? <;> rfl

theorem hub_withdraw : (j.withdraw session).hub = (j.hub.withdraw session).2 := by
  unfold withdraw Hub.withdraw
  rw [hub_getD_remove]
  cases j.hub.remove session.id <;> rfl

theorem hub_offer {frame : Frame} {report : BroadcastReport} :
    (offer frame j session).hub = (Hub.offer frame (report, j.hub) session).2 := by
  unfold offer Hub.offer
  split
  · simp only [*]
  · simp only [*, hub_getD_remove]
  · simp only [*]

theorem hub_foldl_offer {frame : Frame} {members : List Session} {report : BroadcastReport} :
    (members.foldl (offer frame) j).hub =
      (members.foldl (Hub.offer frame) (report, j.hub)).2 := by
  induction members generalizing j report with
  | nil => rfl
  | cons first rest ih =>
    rw [List.foldl_cons, List.foldl_cons, ih, hub_offer]

theorem hub_drain : j.drain.hub = j.hub.drain.2 := by
  -- For any journal, as each call to close a session leaves another one behind.
  have hfold : ∀ (sessions : List Session) (j : Journal),
      (sessions.foldl (fun j s => j.close s.id) j).hub =
        sessions.foldl (fun h s => (h.close s.id).2) j.hub := by
    intro sessions
    induction sessions with
    | nil => exact fun _ => rfl
    | cons s sessions ih => exact fun j => ih _
  exact hfold _ _

theorem Step.onHub (step : Step j act j') : Hub.Step j.hub act j'.hub := by
  cases step with
  | enroll => exact hub_enroll ▸ .enroll
  | withdraw => exact hub_withdraw ▸ .withdraw
  | @broadcast envelope order perm =>
    have hhub : (j.broadcastTo order envelope).hub = (j.hub.broadcastTo order envelope).2 :=
      hub_foldl_offer
    exact hhub ▸ .broadcast perm
  | drain => exact hub_drain ▸ .drain
  | plain step => exact step

/-- Every act on the hub can be written down. -/
theorem Step.exists_of_hub (step : Hub.Step j.hub act hub') :
    ∃ j', Step j act j' ∧ j'.hub = hub' := by
  cases step with
  | enroll => exact ⟨_, .enroll, hub_enroll⟩
  | withdraw => exact ⟨_, .withdraw, hub_withdraw⟩
  | broadcast perm => exact ⟨_, .broadcast perm, hub_foldl_offer⟩
  | drain => exact ⟨_, .drain, hub_drain⟩
  | join => exact ⟨_, .plain .join trivial, rfl⟩
  | leave => exact ⟨_, .plain .leave trivial, rfl⟩
  | take taken => exact ⟨_, .plain (.take taken) trivial, rfl⟩
  | handle => exact ⟨_, .plain .handle trivial, rfl⟩

theorem Run.onHub (run : Run start written last) :
    Hub.Run start.hub (unwritten written) last.hub := by
  refine run.seen (fun step he => ?_) fun _ he => absurd he (by simp)
  obtain rfl := Option.some_inj.mp he
  exact step.onHub

/-- So can every run of the hub. -/
theorem Run.exists_of_hub {past : List (Moment Hub Act)} {hub : Hub}
    (run : Hub.Run start.hub past hub) :
    ∃ written last, Run start written last ∧ unwritten written = past ∧ last.hub = hub := by
  induction run with
  | nil => exact ⟨[], start, .nil, rfl, rfl⟩
  | @snoc past hub hub' act _ step ih =>
    obtain ⟨written, j, hrun, rfl, rfl⟩ := ih
    obtain ⟨j', hstep, rfl⟩ := Step.exists_of_hub step
    exact ⟨_, j', hrun.snoc hstep, unwritten_snoc, rfl⟩

/-! ### The balance of a session -/

/-- How many calls to close the session did so, and one more as long as it is open. -/
def balance (id : SessionId) (j : Journal) : Nat :=
  (j.answersOf id).count true + if j.hub.isClosed id then 0 else 1

theorem answersOf_close : (j.close other).answersOf id =
    j.answersOf id ++ if other = id then [(j.hub.close other).1] else [] := by
  unfold answersOf close
  rw [List.filterMap_append]
  by_cases hid : other = id <;> simp [hid]

/-- Whoever is closed while open says so, and is not open any more. -/
theorem balance_close : (j.close other).balance id = j.balance id := by
  have hclosed : (j.close other).hub.isClosed id =
      if other = id then true else j.hub.isClosed id := by
    rw [close, Hub.isClosed, mailbox_close]
    split
    · exact Mailbox.isClosed_close
    · rfl
  unfold balance
  rw [answersOf_close, hclosed]
  by_cases hid : other = id
  · subst hid
    have hanswer : (j.hub.close other).1 = !j.hub.isClosed other := by
      unfold Hub.close Hub.isClosed Mailbox.close Mailbox.isClosed
      split <;> simp_all
    cases ho : j.hub.isClosed other <;> simp [hanswer, ho]
  · simp [hid]

theorem balance_remove (h : j.remove other = some j') : j'.balance id = j.balance id := by
  obtain ⟨⟨session, registry⟩, -, rfl⟩ := Option.map_eq_some_iff.mp h
  exact balance_close

theorem balance_getD_remove : ((j.remove other).getD j).balance id = j.balance id := by
  cases hr : j.remove other with
  | none => rfl
  | some j' => exact balance_remove hr

theorem balance_enroll : (j.enroll session).balance id = j.balance id := by
  unfold enroll
  split
  · exact balance_close
  · split
    · rfl
    · exact balance_close

theorem balance_offer {frame : Frame} : (offer frame j session).balance id = j.balance id := by
  unfold offer Hub.enqueue
  cases hf : (j.hub.mailbox session.id).fault? with
  | none =>
    rw [Mailbox.enqueue_of_fault?_eq_none hf]
    -- A frame that is taken in makes a queue longer and does not open it.
    have hclosed : (j.hub.setMailbox session.id
        { j.hub.mailbox session.id with queue := (j.hub.mailbox session.id).queue ++ [frame] }
        ).isClosed id = j.hub.isClosed id := by
      rw [Hub.isClosed, mailbox_setMailbox]
      split
      · rename_i hid
        rw [← hid]
        rfl
      · rfl
    simp [Functor.map, Except.map, balance, answersOf, hclosed]
  | some fault =>
    rw [Mailbox.enqueue_of_fault?_eq_some hf]
    cases fault with
    | full => simpa [Functor.map, Except.map] using balance_getD_remove
    | closed => rfl

/-- What each of many changes keeps, all of them keep. -/
theorem balance_foldl {α : Type} {f : Journal → α → Journal}
    (h : ∀ j a, (f j a).balance id = j.balance id) (as : List α) :
    (as.foldl f j).balance id = j.balance id := by
  induction as generalizing j with
  | nil => rfl
  | cons a as ih => rw [List.foldl_cons, ih, h]

theorem balance_drain : j.drain.balance id = j.balance id :=
  balance_foldl (fun _ _ => balance_close) _

/-- No act of the hub changes the balance of a session. -/
theorem Step.balance_eq (step : Step j act j') (hact : act ≠ .handle id) :
    j'.balance id = j.balance id := by
  cases step with
  | enroll => exact balance_enroll
  | withdraw => exact balance_getD_remove
  | broadcast => exact balance_foldl (fun _ _ => balance_offer) _
  | drain => exact balance_drain
  | plain step spares =>
    -- Nothing is written down, so only whether the queue is closed can matter.
    have hclosed : ∀ {hub' : Hub}, hub'.isClosed id = j.hub.isClosed id →
        ({ j with hub := hub' } : Journal).balance id = j.balance id := by
      intro hub' h
      simp [balance, answersOf, h]
    apply hclosed
    cases step with
    | join | leave => rfl
    | @take other frame rest taken =>
      rw [Hub.isClosed, mailbox_setMailbox]
      split
      · rename_i hid
        rw [Mailbox.isClosed_of_take taken, hid]
        rfl
      · rfl
    | @handle other =>
      have hid : other ≠ id := fun h => hact (congrArg Act.handle h)
      rw [Hub.isClosed, mailbox_setMailbox, if_neg hid]
      rfl
    | enroll | withdraw | broadcast | drain => exact absurd spares not_false

/-! ### Acts carried out -/

/-- What an act makes of a hub with a journal, if broadcasts go through the members of a room in the
order in which they came; `none` if the act cannot happen. A queue has one place when it is made,
and later its receiving end can only be dropped. -/
def after? (j : Journal) : Act → Option Journal
  | .enroll session => some (j.enroll session)
  | .withdraw session => some (j.withdraw session)
  | .broadcast envelope =>
    some (j.broadcastTo (j.hub.registry.members envelope.roomId) envelope)
  | .drain => some j.drain
  | .handle id =>
    let m := if (j.hub.mailboxes.get? id).isSome then (j.hub.mailbox id).dropReceiver
      else .ofCapacity 1
    some { j with hub := j.hub.setMailbox id m }
  | .join id roomId => some { j with hub := (j.hub.join id roomId).2 }
  | .leave id roomId => some { j with hub := (j.hub.leave id roomId).2 }
  | .take id frame => (j.hub.after? (.take id frame)).map fun hub => { j with hub }

theorem Step.of_after? (h : j.after? act = some j') : Step j act j' := by
  cases act with
  | enroll => exact Option.some_inj.mp h ▸ .enroll
  | withdraw => exact Option.some_inj.mp h ▸ .withdraw
  | broadcast => exact Option.some_inj.mp h ▸ .broadcast (.refl _)
  | drain => exact Option.some_inj.mp h ▸ .drain
  | handle => exact Option.some_inj.mp h ▸ .plain .handle trivial
  | join => exact Option.some_inj.mp h ▸ .plain .join trivial
  | leave => exact Option.some_inj.mp h ▸ .plain .leave trivial
  | take =>
    obtain ⟨hub', hhub, rfl⟩ := Option.map_eq_some_iff.mp h
    exact .plain (.of_after? hhub) trivial

/-- The run that some acts lead to; those that cannot happen are left out. -/
def play (acts : List Act) : List (Moment Journal Act) × Journal :=
  Trace.follow (fun j act => (j.after? act).map fun j' => (act, j')) {} acts

theorem Run.of_play (acts : List Act) : Run {} (play acts).1 (play acts).2 := by
  refine Trace.of_follow ?_ acts
  intro j act event j' h
  obtain ⟨after, hafter, heq⟩ := Option.map_eq_some_iff.mp h
  obtain ⟨rfl, rfl⟩ := Prod.mk.inj heq
  exact .of_after? hafter

end Journal

end RoomRelay.Hub
