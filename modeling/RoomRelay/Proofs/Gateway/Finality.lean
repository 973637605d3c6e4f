import RoomRelay.Proofs.Gateway.Opening

/-!
# The end is final

When everything has been closed for good nothing is registered any more, and nothing will be. An
errand whose first call comes after that achieves nothing: a session that is to be registered is
turned away and closed, and its marker is not set; nobody joins a room or leaves one; no frame
reaches anybody. The errand may have been asked before the end or after it, and other errands of any
kind and number may be at work.

## Main definitions

* `Errand.Vain`, `Errand.Leftover` — results that stand for nothing achieved, and what is still done
* `Traffic.Reopens` — somebody opens a queue that has been closed

## Main results

* `Errand.within_resume_of_ended` — an errand that comes too late is in vain
* `Traffic.Run.handled` — who was to be registered is registered or gone
* `Traffic.Run.finality` — all this in any run, from the end on
-/

namespace RoomRelay

open Routine

theorem Registry.Indexed.eq_of_closed {r : Registry} (h : r.Indexed) (hc : r.closed = true) :
    r = { closed := true } := by
  obtain ⟨byUser, sessions, rooms, joined, closed⟩ := r
  obtain ⟨rfl, rfl, rfl, rfl⟩ := h.closed_empty hc
  obtain rfl : closed = true := hc
  rfl

/-! ### A closed hub -/

namespace Hub

variable {hub : Hub} {id : SessionId} {roomId : String} {session : Session}

/-- The registry is closed, and empty. -/
structure Ended (hub : Hub) : Prop where
  indexed : hub.registry.Indexed
  closed : hub.registry.closed = true

namespace Ended

variable (h : hub.Ended)

include h

theorem contains_eq (id : SessionId) : hub.registry.contains id = false := by
  rw [Registry.contains, (h.indexed.closed_empty h.closed).2.1]
  rfl

theorem removed_withdraw : (hub.withdraw session).1.removed = false := by
  rw [withdraw, remove_eq_none_iff.mpr (h.contains_eq session.id)]

theorem join_eq_false : (hub.join id roomId).1 = false := by
  rw [join, Registry.join, h.contains_eq]
  rfl

theorem leave_eq_false : (hub.leave id roomId).1 = false := by
  rw [leave, Registry.leave, (h.indexed.closed_empty h.closed).2.2.2]
  rfl

theorem members_eq_nil : hub.registry.members roomId = [] := by
  rw [Registry.members, Registry.memberIds, (h.indexed.closed_empty h.closed).2.2.1]
  rfl

theorem drain_eq_nil : hub.drain.1 = [] := by
  rw [drain, Registry.drain, (h.indexed.closed_empty h.closed).2.1]
  rfl

end Ended

end Hub

/-! ### Errands that come too late -/

namespace Errand

/-- Nothing has been achieved. -/
def Vain : (errand : Errand) → errand.Result → Prop
  | register _, result | unregister _, result | join _ _, result | leave _ _, result =>
    result = false
  | broadcast _, report => report.delivered = 0 ∧ report.dropped = 0
  | shutdown, count => count = 0

/-- What an errand does that achieves nothing: it makes notes, and only one that is to take out a
session clears a marker all the same. -/
def Leftover : Errand → Call → Prop
  | unregister _, request => request.act? = none
  | _, request => request.IsNote

end Errand

variable {g g' : Gateway} {errand : Errand} {reply : errand.opening.Reply} {session : Session}

/-- At a closed hub every errand is in vain. -/
theorem Errand.within_resume_of_ended (h : g.Answers errand.opening reply g')
    (ended : g.hub.Ended) : (errand.resume reply).Within errand.Leftover errand.Vain := by
  cases errand with
  | register session =>
    obtain rfl : reply = .refused := by
      cases h
      exact Hub.enroll_eq_refused_iff.mpr ended.closed
    exact ⟨trivial, fun _ => rfl⟩
  | unregister session =>
    have hremoved : reply.removed = false := by
      cases h
      exact ended.removed_withdraw
    obtain ⟨removed, superseded⟩ := reply
    obtain rfl : removed = false := hremoved
    -- The marker is cleared unless the identity has a session, which it cannot have.
    cases superseded with
    | true => exact rfl
    | false => exact (sparesHub_clearMarker session.userId).bind fun _ _ => rfl
  | join session roomId =>
    obtain rfl : reply = false := by
      cases h
      exact ended.join_eq_false
    exact ⟨trivial, fun _ => rfl⟩
  | leave session roomId =>
    obtain rfl : reply = false := by
      cases h
      exact ended.leave_eq_false
    exact ⟨trivial, fun _ => rfl⟩
  | broadcast envelope =>
    obtain rfl : reply = {} := by
      cases h with
      | plain =>
        change (g.hub.broadcastTo (g.hub.registry.members envelope.roomId) envelope).1 = {}
        rw [ended.members_eq_nil]
        rfl
      -- Whatever the order of the members is, there are none.
      | shuffled perm =>
        rw [ended.members_eq_nil, List.perm_nil] at perm
        rw [perm]
        rfl
    exact ⟨rfl, rfl⟩
  | shutdown =>
    obtain rfl : reply = [] := by
      cases h
      exact ended.drain_eq_nil
    exact ⟨trivial, fun _ => rfl⟩

/-! ### From the end on -/

namespace Traffic

variable {may : Traffic → Errand → Prop} {t t' start : Traffic} {event : Event}
variable {past earlier later : List (Moment Traffic Event)} {d : Moment Traffic Event}

/-- A queue is opened that was closed, although its session was to be registered. -/
def Reopens (m : Moment Traffic Event) : Prop :=
  match m.event with
  | .handle id =>
    (∃ task ∈ m.before.tasks, task.errand.enrollee?.map (·.id) = some id) ∧
      m.before.gateway.hub.isClosed id = true ∧ m.after.gateway.hub.isClosed id = false
  | _ => False

/-- The hub was called to register the session. -/
def Enrolled (session : Session) (past : List (Moment Traffic Event)) : Prop :=
  ∃ m ∈ past, m.event = .call (.register session) (.enroll session)

theorem enrolled_snoc {m : Moment Traffic Event} : Enrolled session (past ++ [m]) ↔
    Enrolled session past ∨ m.event = .call (.register session) (.enroll session) := by
  unfold Enrolled
  simp [or_and_right, exists_or]

/-- The session is registered or gone, and whoever was asked to register it is still known. -/
structure Handled (session : Session) (t : Traffic) : Prop where
  asked : ∃ task ∈ t.tasks, task.errand = .register session
  registered_or_gone : t.gateway.hub.registry.contains session.id = true ∨
    Hub.Gone session.id t.gateway.hub

theorem Step.handled (step : Step may t event t') (hi : t.gateway.hub.registry.Indexed)
    (hin : Handled session t ∨ event = .call (.register session) (.enroll session))
    (hshut : ¬ Reopens ⟨t, event, t'⟩) : Handled session t' := by
  cases step with
  | begin =>
    obtain ⟨⟨task, htask, he⟩, hsession⟩ := hin.resolve_right (by simp)
    exact ⟨⟨task, List.mem_append_left _ htask, he⟩, hsession⟩
  | @call g g' front back errand request next reply answers =>
    constructor
    · -- What was asked is not forgotten when a call is answered.
      rcases hin with ⟨⟨task, htask, he⟩, -⟩ | hcall
      · rcases mem_tasks_iff.mp htask with rfl | hother
        · exact ⟨_, mem_tasks_iff.mpr (Or.inl rfl), he⟩
        · exact ⟨task, mem_tasks_iff.mpr (Or.inr hother), he⟩
      · exact ⟨_, mem_tasks_iff.mpr (Or.inl rfl), (Event.call.inj hcall).1⟩
    · refine answers.registered_or_gone hi ?_
      rcases hin with hbefore | hcall
      · exact Or.inl hbefore.registered_or_gone
      · exact Or.inr ⟨session, (Event.call.inj hcall).2, rfl⟩
  | @handle _ id m =>
    obtain ⟨⟨task, htask, he⟩, hsession⟩ := hin.resolve_right (by simp)
    refine ⟨⟨task, htask, he⟩, ?_⟩
    have hstep : Hub.Step t.gateway.hub (.handle id) (t.gateway.hub.setMailbox id m) := .handle
    refine hstep.registered_or_gone hi hsession (by simp) ?_
    rintro hact hclosed
    -- Only a queue that is opened again could bring the session back.
    obtain rfl := Hub.Act.handle.inj hact
    by_contra hopen
    refine hshut ⟨⟨task, htask, ?_⟩, hclosed, Bool.eq_false_iff.mpr hopen⟩
    rw [he]
    rfl

/-- Whatever may be asked, a session that the hub was called to register is registered or gone. -/
theorem Run.handled (run : Run may start past t) (empty : start.gateway.hub.registry = {})
    (shut : ∀ m ∈ past, ¬ Reopens m) (henrolled : Enrolled session past) :
    Handled session t := by
  induction run with
  | nil =>
    obtain ⟨m, hm, -⟩ := henrolled
    exact absurd hm (by simp)
  | @snoc past t t' event run step ih =>
    obtain ⟨hpast, hlast⟩ := List.forall_mem_append.mp shut
    refine step.handled (Run.indexed run empty) ?_ (hlast _ (List.mem_singleton_self _))
    exact (enrolled_snoc.mp henrolled).imp_left (ih hpast)

theorem Step.ended (step : Step may t event t') (h : t.gateway.hub.Ended) :
    t'.gateway.hub.Ended := by
  refine ⟨step.indexed h.indexed, ?_⟩
  cases step with
  | begin => exact h.closed
  | call answers => exact answers.closed h.closed
  | handle => exact h.closed

theorem Run.ended (run : Run may start past t) (h : start.gateway.hub.Ended) :
    t.gateway.hub.Ended :=
  run.preserves (P := fun t => t.gateway.hub.Ended) Step.ended h

/-- In a closed hub nobody is registered, so whoever was to be is closed. -/
theorem Handled.isClosed (h : Handled session t) (ended : t.gateway.hub.Ended) :
    t.gateway.hub.isClosed session.id = true := by
  rcases h.registered_or_gone with hcontains | hgone
  · exact absurd ((ended.contains_eq session.id).symm.trans hcontains) (by simp)
  · exact hgone.closed

/-- **The end is final.** Take any run of any errands from an empty registry, in which no queue of a
session that was to be registered is opened again, and say that at some moment of it the sessions
are all closed for good. At the end of the run, that is, in every later state, nothing is in any
table. Whichever errand makes its first call later was untouched until then, and whatever is left of
it after that call ends in vain and makes notes only, if it is not to take out a session; one that
was to register a session has closed it. All sessions that were registered before or turned away
later are closed. -/
theorem Run.finality (run : Run may start (earlier ++ d :: later) t)
    (empty : start.gateway.hub.registry = {}) (idle : start.tasks = [])
    (drained : ∃ errand, d.event = .call errand .drain)
    (shut : ∀ m ∈ earlier ++ d :: later, ¬ Reopens m) :
    t.gateway.hub.registry = { closed := true } ∧
    (∀ m ∈ later, ∀ errand, m.event = .call errand errand.opening →
      ∃ front rest back, m.before.tasks = front ++ ⟨errand, errand.routine⟩ :: back ∧
        m.after.tasks = front ++ ⟨errand, rest⟩ :: back ∧
        rest.Within errand.Leftover errand.Vain ∧
        ∀ session, errand = .register session →
          m.after.gateway.hub.isClosed session.id = true) ∧
    (∀ session, Enrolled session (earlier ++ d :: later) →
      t.gateway.hub.isClosed session.id = true) := by
  obtain ⟨hbefore, hstep, hafter⟩ := run.at_moment
  -- The tables are empty when everything has just been closed, and a closed hub stays so.
  have hended : d.after.gateway.hub.Ended := by
    refine ⟨hstep.indexed (Run.indexed hbefore empty), ?_⟩
    obtain ⟨errand, hdrain⟩ := drained
    obtain ⟨before, event, after⟩ := d
    obtain rfl : event = .call errand .drain := hdrain
    cases hstep with
    | call answers => exact answers.closed_of_drain
  have hend : t.gateway.hub.Ended := Run.ended hafter hended
  refine ⟨hend.indexed.eq_of_closed hend.closed, ?_, ?_⟩
  · intro m hm errand hevent
    -- The later moment cuts the run once more: what was asked is read off the whole of it, and
    -- that the hub is closed off the part between the two moments.
    obtain ⟨middle, rest, rfl⟩ := List.append_of_mem hm
    rw [← List.cons_append, ← List.append_assoc] at run shut
    obtain ⟨hpast, hnext, -⟩ := run.at_moment
    obtain ⟨hmiddle, -, -⟩ := hafter.at_moment
    have hm : m.before.gateway.hub.Ended := Run.ended hmiddle hended
    have hm' : m.after.gateway.hub.Ended := hnext.ended hm
    obtain ⟨before, event, after⟩ := m
    obtain rfl : event = .call errand errand.opening := hevent
    obtain ⟨front, reply, back, answers, htasks, htasks'⟩ :=
      hnext.of_opening (Run.opens hpast idle)
    refine ⟨front, _, back, htasks, htasks', Errand.within_resume_of_ended answers hm, ?_⟩
    rintro session rfl
    refine Handled.isClosed (Run.handled (hpast.snoc hnext) empty ?_ ?_) hm'
    · rw [List.append_cons] at shut
      exact fun n hn => shut n (List.mem_append_left _ hn)
    · exact enrolled_snoc.mpr (Or.inr rfl)
  · intro session henrolled
    exact (run.handled empty shut henrolled).isClosed hend

instance : DecidablePred Reopens
  | ⟨_, .handle _, _⟩ => inferInstanceAs (Decidable (_ ∧ _ ∧ _))
  | ⟨_, .begin _, _⟩ | ⟨_, .call _ _, _⟩ => .isFalse id

/-- A gateway with two sessions that have been made. -/
def lobby : Traffic :=
  { idle with gateway.hub :=
      (({} : Hub).openSession (Hub.sessionOf "alice" 1) 4).openSession (Hub.sessionOf "bob" 2) 4 }

/-- One session is registered, everything is closed, and then a second one is registered that was
asked for before, and the first one wants to join a room. -/
def lateComers : List Move :=
  [.begin (.register (Hub.sessionOf "alice" 1)), .advance 0,
    .begin (.register (Hub.sessionOf "bob" 2)), .begin .shutdown, .advance 2, .advance 1,
    .begin (.join (Hub.sessionOf "alice" 1) "general"), .advance 3]

theorem Run.finality_of_lateComers :
    (∀ m ∈ (lobby.play (fun _ _ => True) lateComers).1, ¬ Reopens m) ∧
    ∀ session ∈ [Hub.sessionOf "alice" 1, Hub.sessionOf "bob" 2],
      lobby.gateway.hub.isClosed session.id = false ∧
      (lobby.play (fun _ _ => True) lateComers).2.gateway.hub.isClosed session.id = true := by
  have hshut : ∀ m ∈ (lobby.play (fun _ _ => True) lateComers).1, ¬ Reopens m := by decide
  have hsplit : (lobby.play (fun _ _ => True) lateComers).1 =
      (lobby.play (fun _ _ => True) lateComers).1.take 4 ++
        (lobby.play (fun _ _ => True) lateComers).1[4] ::
          (lobby.play (fun _ _ => True) lateComers).1.drop 5 := by
    rw [← List.drop_eq_getElem_cons, List.take_append_drop]
  have hrun : Run (fun _ _ => True) lobby _ _ := Run.of_play lateComers
  rw [hsplit] at hrun
  have hfinal := Run.finality hrun rfl rfl ⟨.shutdown, rfl⟩ (by rwa [← hsplit])
  rw [← hsplit] at hfinal
  obtain ⟨-, -, hclosed⟩ := hfinal
  refine ⟨hshut, ?_⟩
  intro session hsession
  rw [List.mem_cons, List.mem_singleton] at hsession
  rcases hsession with rfl | rfl
  · exact ⟨by decide, hclosed _ ⟨_, List.getElem_mem (show 1 < _ by decide), rfl⟩⟩
  · exact ⟨by decide, hclosed _ ⟨_, List.getElem_mem (show 5 < _ by decide), rfl⟩⟩

end Traffic

end RoomRelay
