import Mathlib.Data.List.Pairwise
import RoomRelay.Proofs.Hub.Delivery
import RoomRelay.Proofs.Hub.Journal

/-!
# The life of a session

A session is made, is registered once, and is closed once, whether because its identity connects
again, because it is taken out, because its queue overflows or because the hub closes for good.
Calls that come late find it gone and change nothing about that.

## Main definitions

* `Hub.Proper` — sessions are made first, are registered once, and only the hub closes them
* `Hub.Tracked` — what is known of a session in the course of such a run
* `Hub.admitted` — the sessions of an identity that the hub let in

## Main results

* `Hub.Run.tracked` — a session that was to be registered is registered as long as it is open
* `Hub.Run.gone` — who is gone stays so, and is sent nothing any more
* `Hub.Run.getLast?_admitted` — who is registered is the last one that the hub let in
* `Hub.Journal.Run.lifecycle` — the life of every session in every run
-/

namespace RoomRelay.Hub

variable {hub hub' : Hub} {id other : SessionId} {session : Session} {act : Act}

/-! ### Sessions that are used as they should be -/

variable {past : List (Moment Hub Act)} {m : Moment Hub Act}

/-- The queue of the session has been made. -/
def Made (id : SessionId) (past : List (Moment Hub Act)) : Prop :=
  ∃ m ∈ past, m.event = .handle id

instance : Decidable (Made id past) := inferInstanceAs (Decidable (∃ m ∈ past, _))

/-- After what has happened so far, the moment uses sessions as it should: a session is registered
once, after it has been made; it is made with an empty queue, and all that happens to that from
outside is that the receiving end is dropped. -/
def Permitted (past : List (Moment Hub Act)) (m : Moment Hub Act) : Prop :=
  match m.event with
  | .enroll session => Made session.id past ∧ ∀ s ∈ enrolled past, s.id ≠ session.id
  | .handle id =>
    if Made id past then m.after.mailbox id = (m.before.mailbox id).dropReceiver
    else ∃ capacity, m.after.mailbox id = .ofCapacity capacity
  | _ => True

/-- All sessions are made first, are registered at most once, and are closed by the hub only. -/
def Proper (past : List (Moment Hub Act)) : Prop :=
  ∀ i, (h : i < past.length) → Permitted (past.take i) past[i]

theorem proper_snoc : Proper (past ++ [m]) ↔ Proper past ∧ Permitted past m := by
  unfold Proper
  constructor
  · intro h
    constructor
    · intro i hi
      have hm := h i (by rw [List.length_append]; omega)
      rwa [List.take_append_of_le_length hi.le, List.getElem_append_left hi] at hm
    · have hm := h past.length (by simp)
      rwa [List.take_left, List.getElem_concat_length rfl] at hm
  · rintro ⟨h, hm⟩ i hi
    rw [List.length_append, List.length_singleton] at hi
    by_cases hlast : i < past.length
    · rw [List.take_append_of_le_length hlast.le, List.getElem_append_left hlast]
      exact h i hlast
    · obtain rfl : i = past.length := by omega
      rwa [List.take_left, List.getElem_concat_length rfl]

theorem Proper.of_append {later : List (Moment Hub Act)} (h : Proper (past ++ later)) :
    Proper past := by
  induction later using List.reverseRecOn with
  | nil => rwa [List.append_nil] at h
  | append_singleton later m ih =>
    rw [← List.append_assoc] at h
    exact ih (proper_snoc.mp h).1

theorem made_snoc : Made id (past ++ [m]) ↔ Made id past ∨ m.event = .handle id :=
  exists_mem_snoc

theorem Proper.distinctIds (h : Proper past) : DistinctIds past := by
  unfold DistinctIds
  induction past using List.reverseRecOn with
  | nil => exact .nil
  | append_singleton past m ih =>
    obtain ⟨hpast, hm⟩ := proper_snoc.mp h
    rw [enrolled_snoc, List.pairwise_append]
    refine ⟨ih hpast, ?_, ?_⟩
    · cases m.event.enrollee? <;> simp
    · -- The identifier of the last one is new.
      intro s hs t ht hid
      obtain ⟨before, event, after⟩ := m
      cases event with
      | enroll session =>
        obtain rfl : t = session := by simpa [Act.enrollee?] using ht
        exact absurd hid (hm.2 s hs)
      | _ => simp [Act.enrollee?] at ht

theorem DistinctIds.eq_of_id_eq (h : DistinctIds past) {s t : Session} (hs : s ∈ enrolled past)
    (ht : t ∈ enrolled past) (hid : s.id = t.id) : s = t := by
  -- The list is in the order of time, but the relation does not depend on it.
  have : Std.Symm fun s t : Session => s.id = t.id → s = t :=
    ⟨fun _ _ h hid => (h hid.symm).symm⟩
  by_contra hne
  exact hne (List.Pairwise.forall h hs ht hne hid)

/-- The session was to be registered. -/
def Known (id : SessionId) (past : List (Moment Hub Act)) : Prop := ∃ s ∈ enrolled past, s.id = id

theorem known_snoc : Known id (past ++ [m]) ↔
    Known id past ∨ ∃ session, m.event = .enroll session ∧ session.id = id := by
  unfold Known
  rw [enrolled_snoc]
  cases he : m.event <;> simp [Act.enrollee?, or_and_right, exists_or]

theorem Permitted.handle_made (h : Permitted past ⟨hub, .handle id, hub'⟩) (hmade : Made id past) :
    hub'.mailbox id = (hub.mailbox id).dropReceiver := by
  simpa [Permitted, hmade] using h

/-- What is known of a session in the course of a run: it is made before it is to be registered;
from then on it is registered as long as it is open, and before that it is open all the time. -/
structure Tracked (id : SessionId) (past : List (Moment Hub Act)) (hub : Hub) : Prop where
  made : Known id past → Made id past
  known : Known id past → hub.registry.contains id = !hub.isClosed id
  unknown : ¬ Known id past →
    hub.registry.contains id = false ∧ (Made id past → hub.isClosed id = false)

/-- The act that is to register a session. -/
theorem Tracked.enroll (h : Tracked session.id past hub) (hi : hub.registry.Indexed)
    (hp : Permitted past ⟨hub, .enroll session, (hub.enroll session).2⟩) :
    Tracked session.id (past ++ [⟨hub, .enroll session, (hub.enroll session).2⟩])
      (hub.enroll session).2 := by
  obtain ⟨hmade, hnew⟩ := hp
  have hunknown : ¬ Known session.id past := fun ⟨s, hs, hid⟩ => hnew s hs hid
  obtain ⟨habsent, hopen⟩ := h.unknown hunknown
  have hknown : Known session.id (past ++ [⟨hub, .enroll session, (hub.enroll session).2⟩]) :=
    known_snoc.mpr (Or.inr ⟨session, rfl, rfl⟩)
  refine ⟨fun _ => made_snoc.mpr (Or.inl hmade), fun _ => ?_, fun hno => absurd hknown hno⟩
  rcases enroll_self session hi with ⟨hregistry, -, hmailbox⟩ | ⟨hcontains, hmailbox⟩
  · rw [hregistry, habsent, isClosed, hmailbox, Mailbox.isClosed_close]
    rfl
  · have hstill : (hub.enroll session).2.isClosed session.id = hub.isClosed session.id :=
      congrArg Mailbox.isClosed hmailbox
    rw [hcontains, hstill, hopen hmade]
    rfl

/-- Any other act. -/
theorem Tracked.bystander (h : Tracked id past hub) (hi : hub.registry.Indexed)
    (step : Step hub act hub') (hp : Permitted past ⟨hub, act, hub'⟩)
    (hother : ∀ session, act = .enroll session → session.id ≠ id) :
    Tracked id (past ++ [⟨hub, act, hub'⟩]) hub' := by
  have hknown : Known id (past ++ [⟨hub, act, hub'⟩]) ↔ Known id past := by
    rw [known_snoc]
    refine or_iff_left ?_
    rintro ⟨session, hact, hid⟩
    exact hother session hact hid
  have hmade : Known id (past ++ [⟨hub, act, hub'⟩]) → Made id (past ++ [⟨hub, act, hub'⟩]) :=
    fun hk => made_snoc.mpr (Or.inl (h.made (hknown.mp hk)))
  -- The act leaves the session alone, or tears it down, for which it must be registered.
  rcases step.unchanged_or_tornDown hi hother with ⟨hcontains, hsame⟩ | htorn
  · have hstill : Made id past → hub'.isClosed id = hub.isClosed id := by
      intro hm
      by_cases hact : act = .handle id
      · subst hact
        rw [isClosed, hp.handle_made hm]
        rfl
      · exact hsame hact
    refine ⟨hmade, fun hk => ?_, fun hu => ?_⟩
    · have hk' := hknown.mp hk
      rw [hcontains, hstill (h.made hk'), h.known hk']
    · obtain ⟨habsent, hopen⟩ := h.unknown (mt hknown.mpr hu)
      refine ⟨hcontains.trans habsent, fun hm => ?_⟩
      by_cases hold : Made id past
      · exact (hstill hold).trans (hopen hold)
      · -- It is made by this act, and a new queue is open.
        obtain rfl : act = .handle id := (made_snoc.mp hm).resolve_left hold
        obtain ⟨capacity, hnew⟩ : ∃ capacity, hub'.mailbox id = .ofCapacity capacity := by
          simpa [Permitted, hold] using hp
        rw [isClosed, hnew]
        rfl
  · have hk : Known id past := by
      by_contra hu
      exact absurd (htorn.registered.symm.trans (h.unknown hu).1) (by simp)
    refine ⟨hmade, fun _ => ?_, fun hu => absurd (hknown.mpr hk) hu⟩
    rw [htorn.gone, htorn.isClosed]
    rfl

theorem Tracked.step (h : Tracked id past hub) (hi : hub.registry.Indexed)
    (step : Step hub act hub') (hp : Permitted past ⟨hub, act, hub'⟩) :
    Tracked id (past ++ [⟨hub, act, hub'⟩]) hub' := by
  by_cases hact : ∃ session, act = .enroll session ∧ session.id = id
  · obtain ⟨session, rfl, rfl⟩ := hact
    cases step
    exact h.enroll hi hp
  · exact h.bystander hi step hp fun session he hid => hact ⟨session, he, hid⟩

/-- A session is registered as long as it is open, from the moment on at which it was to be
registered. -/
theorem Run.tracked {start : Hub} (run : Run start past hub) (empty : start.registry = {})
    (proper : Proper past) (id : SessionId) : Tracked id past hub := by
  induction run with
  | nil =>
    refine ⟨fun ⟨s, hs, _⟩ => absurd hs (by simp [enrolled]),
      fun ⟨s, hs, _⟩ => absurd hs (by simp [enrolled]), fun _ => ⟨?_, ?_⟩⟩
    · rw [empty]
      rfl
    · rintro ⟨m, hm, -⟩
      exact absurd hm (by simp)
  | snoc run step ih =>
    obtain ⟨hpast, hm⟩ := proper_snoc.mp proper
    refine (ih hpast).step (Run.indexed run ?_) step hm
    rw [empty]
    exact Registry.indexed_empty

/-! ### Once closed -/

/-- Nothing is put into the queue of a session that is gone. -/
theorem Step.gained_eq_nil (step : Step hub act hub') (hi : hub.registry.Indexed)
    (hgone : Gone id hub) (hother : ∀ session, act = .enroll session → session.id ≠ id)
    (hshut : act = .handle id → hub'.mailbox id = (hub.mailbox id).dropReceiver) :
    gained id ⟨hub, act, hub'⟩ = [] := by
  have hkept : Kept id hub hub' → gained id ⟨hub, act, hub'⟩ = [] := by
    intro hk
    apply gained_of_queue_eq_append
    rw [hk.mailbox_eq, List.append_nil]
  by_cases hact : act.Concerns id
  · cases step with
    | @enroll session => exact absurd hact (hother session rfl)
    | @broadcast envelope order perm =>
      apply hkept
      apply kept_of_not_addresses hi perm
      rintro ⟨hmember, -⟩
      have hcontains := hi.contains_of_isMember (Registry.mem_memberIds.mp hmember)
      exact absurd (hgone.absent.symm.trans hcontains) (by simp)
    | @take other frame rest htake =>
      obtain rfl : other = id := hact
      -- What is left of a queue is shorter than the queue.
      have hlen : rest.queue.length ≤ (hub.mailbox other).queue.length := by
        rw [(Mailbox.eq_of_take_eq_some htake).1, List.length_cons]
        exact Nat.le_succ _
      simp [gained, List.drop_eq_nil_iff, hlen]
    | @handle other =>
      obtain rfl : other = id := hact
      simp [gained, hshut rfl, Mailbox.dropReceiver]
    | withdraw | join | leave | drain => exact absurd hact not_false
  · rcases step.kept_or_tornDown hi hact with hk | htorn
    · exact hkept hk
    · exact absurd (hgone.absent.symm.trans htorn.registered) (by simp)

/-- Whoever is gone stays so, and is sent nothing any more. -/
theorem Run.gone {start : Hub} {later : List (Moment Hub Act)} (run : Run start later hub)
    (hi : start.registry.Indexed) (hgone : Gone id start)
    (hother : ∀ m ∈ later, ∀ session, m.event = .enroll session → session.id ≠ id)
    (hshut : ∀ m ∈ later, m.event = .handle id →
      m.after.mailbox id = (m.before.mailbox id).dropReceiver) :
    Gone id hub ∧ accepted id later = [] := by
  induction run with
  | nil => exact ⟨hgone, rfl⟩
  | @snoc later hub hub' act run step ih =>
    obtain ⟨hothers, hlast⟩ := forall_mem_snoc.mp hother
    obtain ⟨hshuts, hend⟩ := forall_mem_snoc.mp hshut
    obtain ⟨hg, haccepted⟩ := ih hothers hshuts
    have hindexed := Run.indexed run hi
    constructor
    · refine step.gone hindexed hg hlast fun hact => ?_
      rw [isClosed, hend hact]
      exact hg.closed
    · rw [accepted_snoc, haccepted, step.gained_eq_nil hindexed hg hlast hend]
      rfl

/-- What is permitted in a proper run: whoever was to be registered is not registered again, and its
queue is not touched from outside but for its receiving end. -/
theorem Proper.later {earlier later : List (Moment Hub Act)} (h : Proper (earlier ++ later))
    (hknown : Known id earlier) (hmade : Made id earlier) :
    (∀ m ∈ later, ∀ session, m.event = .enroll session → session.id ≠ id) ∧
      ∀ m ∈ later, m.event = .handle id →
        m.after.mailbox id = (m.before.mailbox id).dropReceiver := by
  induction later using List.reverseRecOn with
  | nil => simp
  | append_singleton later m ih =>
    rw [← List.append_assoc] at h
    obtain ⟨hpast, hm⟩ := proper_snoc.mp h
    obtain ⟨hothers, hshuts⟩ := ih hpast
    -- What is permitted depends on all that came before, the earlier part included.
    obtain ⟨before, event, after⟩ := m
    rw [forall_mem_snoc, forall_mem_snoc]
    refine ⟨⟨hothers, ?_⟩, hshuts, ?_⟩
    · rintro session rfl hid
      obtain ⟨s, hs, hsid⟩ := hknown
      refine hm.2 s ?_ (hsid.trans hid.symm)
      unfold enrolled
      rw [List.filterMap_append]
      exact List.mem_append_left _ hs
    · rintro rfl
      obtain ⟨n, hn, he⟩ := hmade
      exact hm.handle_made ⟨n, List.mem_append_left _ hn, he⟩

/-! ### The latest session of an identity -/

/-- The session of the identity that the hub let in at a moment. -/
def entrant? (userId : String) (m : Moment Hub Act) : Option Session :=
  match m.event with
  | .enroll session =>
    if session.userId = userId ∧ (m.before.enroll session).1 ≠ .refused then some session else none
  | _ => none

/-- The sessions of the identity that the hub let in, in their order. -/
def admitted (userId : String) (past : List (Moment Hub Act)) : List Session :=
  past.filterMap (entrant? userId)

theorem getLast?_admitted_snoc {userId : String} :
    (admitted userId (past ++ [m])).getLast? =
      (entrant? userId m).or (admitted userId past).getLast? := by
  unfold admitted
  rw [List.filterMap_append, List.getLast?_append]
  cases he : entrant? userId m <;> simp [he]

/-- A session that was let in is the one of its identity. -/
theorem registered_enroll (session : Session) (hopen : hub.registry.closed = false) :
    (hub.enroll session).2.registry.current session.userId = some session.id ∧
      (hub.enroll session).2.registry.sessions.get? session.id = some session := by
  rw [registry_enroll, hopen, if_neg (by simp)]
  rcases Registry.insert_cases hub.registry session with ⟨_, _, rest, -, -, he⟩ | ⟨-, he⟩
  · rw [he, Registry.current_enter, Registry.get?_sessions_enter, if_pos rfl, if_pos rfl]
    exact ⟨rfl, rfl⟩
  · rw [he, Registry.current_enter, Registry.get?_sessions_enter, if_pos rfl, if_pos rfl]
    exact ⟨rfl, rfl⟩

/-- Whoever is registered is the last session of its identity that the hub let in. -/
theorem Run.getLast?_admitted {start : Hub} (run : Run start past hub)
    (empty : start.registry = {}) (distinct : DistinctIds past)
    (hs : hub.registry.sessions.get? id = some session) :
    (admitted session.userId past).getLast? = some session := by
  induction run with
  | nil =>
    rw [empty] at hs
    exact absurd hs (by simp)
  | @snoc past hub hub' act run step ih =>
    have hcoherent := Run.coherent (run.snoc step) empty distinct
    have hbefore : DistinctIds past := by
      unfold DistinctIds at distinct
      rw [enrolled_snoc, List.pairwise_append] at distinct
      exact distinct.1
    rw [getLast?_admitted_snoc]
    by_cases hentrant : ∃ t, act = .enroll t ∧ t.userId = session.userId ∧
        hub.registry.closed = false
    · -- The identity has a new session, which is the only one it has from now on.
      obtain ⟨t, rfl, hu, hopen⟩ := hentrant
      cases step
      obtain ⟨hcurrent, hregistered⟩ := registered_enroll t hopen
      rw [hu, hcoherent.current_of_session hs] at hcurrent
      obtain rfl := Option.some_inj.mp hcurrent
      obtain rfl := Option.some_inj.mp (hs.symm.trans hregistered)
      have hadmits : (hub.enroll session).1 ≠ .refused := by
        rw [Ne, enroll_eq_refused_iff, hopen]
        simp
      simp [entrant?, hadmits]
    · have hnone : entrant? session.userId ⟨hub, act, hub'⟩ = none := by
        cases act with
        | enroll t =>
          refine if_neg ?_
          rw [ne_eq, enroll_eq_refused_iff, Bool.not_eq_true]
          exact fun h => hentrant ⟨t, rfl, h⟩
        | _ => rfl
      rw [hnone]
      refine ih hbefore ?_
      rcases step.registered hs with hold | rfl
      · exact hold
      · -- It is one that a closed hub turned away, so the registry is as it was.
        cases step
        have hclosed : hub.registry.closed = true := by
          by_contra hopen
          exact hentrant ⟨session, rfl, rfl, Bool.not_eq_true _ ▸ hopen⟩
        rwa [registry_enroll, if_pos hclosed] at hs

/-! ### Whole lives -/

namespace Journal

variable {start last : Journal} {written : List (Moment Journal Act)}

/-- A session has been closed or is open, and not both, as soon as it is made. -/
theorem Run.balance_eq (run : Run {} written last) (proper : Proper (unwritten written))
    (id : SessionId) : last.balance id = if Made id (unwritten written) then 1 else 0 := by
  induction run with
  | nil => rfl
  | @snoc written j j' act run step ih =>
    rw [unwritten_snoc, proper_snoc] at proper
    obtain ⟨hpast, hm⟩ := proper
    rw [unwritten_snoc]
    by_cases hact : act = .handle id
    · subst hact
      have hmade : Made id (unwritten written ++ [⟨j.hub, .handle id, j'.hub⟩]) :=
        made_snoc.mpr (Or.inr rfl)
      have hanswers : j'.answersOf id = j.answersOf id := by
        cases step
        rfl
      have hold := ih hpast
      unfold balance at hold ⊢
      rw [if_pos hmade, hanswers]
      by_cases hbefore : Made id (unwritten written)
      · have hclosed : j'.hub.isClosed id = j.hub.isClosed id := by
          rw [Hub.isClosed, hm.handle_made hbefore]
          rfl
        rw [hclosed, hold, if_pos hbefore]
      · -- Nobody has been asked to close it, and its queue is new.
        obtain ⟨capacity, hnew⟩ : ∃ capacity, j'.hub.mailbox id = .ofCapacity capacity := by
          simpa [Permitted, hbefore] using hm
        have hopen : j'.hub.isClosed id = false := by
          rw [Hub.isClosed, hnew]
          rfl
        rw [if_neg hbefore] at hold
        rw [hopen]
        simp only [Nat.add_eq_zero_iff] at hold
        simp [hold.1]
    · have hmade : Made id (unwritten written ++ [⟨j.hub, act, j'.hub⟩]) ↔
          Made id (unwritten written) := by
        rw [made_snoc]
        exact or_iff_left hact
      rw [step.balance_eq hact, ih hpast]
      exact if_congr hmade.symm rfl rfl

/-- **The life of a session.** Take any run of the hub, from nothing, in which sessions are made
before they are registered, are registered once at most, and are closed by the hub only. At its end,
each session that was to be registered is either open and registered, and no call has closed it, or
it is closed and in none of the four tables, and of the calls to close it exactly one did so. Once
closed it stays closed and is never registered, never in a room and never sent a frame again. A
session that is open is the current one of its identity, is the last one of the identity that the
hub let in, and is the only one of the identity that is open. -/
theorem Run.lifecycle (run : Run {} written last) (proper : Proper (unwritten written)) :
    (∀ s ∈ enrolled (unwritten written),
      (last.hub.isClosed s.id = false ∧ last.hub.registry.sessions.get? s.id = some s ∧
        (last.answersOf s.id).count true = 0) ∨
      (last.hub.isClosed s.id = true ∧ last.hub.registry.Absent s.id ∧
        (last.answersOf s.id).count true = 1)) ∧
    (∀ earlier m later, unwritten written = earlier ++ m :: later →
      ∀ s ∈ enrolled (earlier ++ [m]), m.after.isClosed s.id = true →
        last.hub.isClosed s.id = true ∧ last.hub.registry.Absent s.id ∧
          accepted s.id later = []) ∧
    (∀ s ∈ enrolled (unwritten written), last.hub.isClosed s.id = false →
      last.hub.registry.current s.userId = some s.id ∧
      (admitted s.userId (unwritten written)).getLast? = some s ∧
      ∀ t ∈ enrolled (unwritten written), t.userId = s.userId → last.hub.isClosed t.id = false →
        t = s) := by
  have hrun : Hub.Run {} (unwritten written) last.hub := run.onHub
  have hcoherent := hrun.coherent rfl proper.distinctIds
  have htracked := hrun.tracked rfl proper
  have hopen : ∀ s ∈ enrolled (unwritten written), last.hub.isClosed s.id = false →
      last.hub.registry.sessions.get? s.id = some s := by
    intro s hs ho
    have hcontains := (htracked s.id).known ⟨s, hs, rfl⟩
    rw [ho] at hcontains
    obtain ⟨found, hfound⟩ := Registry.contains_iff.mp hcontains
    -- Whoever is registered under the identifier was to be registered, so it is the session.
    have hsame := proper.distinctIds.eq_of_id_eq (hrun.mem_enrolled rfl hfound) hs
      (hcoherent.session_id hfound)
    rwa [hsame] at hfound
  have hbalance : ∀ s ∈ enrolled (unwritten written), last.balance s.id = 1 := by
    intro s hs
    rw [run.balance_eq proper, if_pos ((htracked s.id).made ⟨s, hs, rfl⟩)]
  refine ⟨?_, ?_, ?_⟩
  · intro s hs
    -- Open or closed, the balance is one: it is the queue that counts, or the call that closed it.
    have hone := hbalance s hs
    unfold balance at hone
    cases hc : last.hub.isClosed s.id with
    | false =>
      rw [hc] at hone
      exact Or.inl ⟨rfl, hopen s hs hc, by simpa using hone⟩
    | true =>
      have hcontains := (htracked s.id).known ⟨s, hs, rfl⟩
      rw [hc] at hone hcontains
      exact Or.inr ⟨rfl, hcoherent.absent hcontains, by simpa using hone⟩
  · intro earlier m later heq s hs hclosed
    rw [heq] at hrun proper
    rw [List.append_cons] at proper
    obtain ⟨hbefore, hstep, hafter⟩ := hrun.at_moment
    have huntil : Hub.Run {} (earlier ++ [m]) m.after := hbefore.snoc hstep
    have hknown : Known s.id (earlier ++ [m]) := ⟨s, hs, rfl⟩
    have hthen := huntil.tracked rfl proper.of_append s.id
    have hgone : Gone s.id m.after := by
      refine ⟨?_, hclosed⟩
      rw [hthen.known hknown, hclosed]
      rfl
    obtain ⟨hothers, hshuts⟩ := proper.later hknown (hthen.made hknown)
    obtain ⟨hend, haccepted⟩ := Hub.Run.gone hafter (huntil.indexed Registry.indexed_empty)
      hgone hothers hshuts
    exact ⟨hend.closed, hcoherent.absent hend.absent, haccepted⟩
  · intro s hs ho
    have hlast := hrun.getLast?_admitted rfl proper.distinctIds (hopen s hs ho)
    refine ⟨hcoherent.current_of_session (hopen s hs ho), hlast, ?_⟩
    intro t ht hu hto
    -- Both are the last session of the identity.
    have htlast := hrun.getLast?_admitted rfl proper.distinctIds (hopen t ht hto)
    rw [hu] at htlast
    exact Option.some_inj.mp (htlast.symm.trans hlast)

end Journal

deriving instance DecidableEq for Mailbox

instance (m : Mailbox) : Decidable (∃ capacity, m = .ofCapacity capacity) :=
  decidable_of_iff (m = .ofCapacity m.capacity) ⟨fun h => ⟨_, h⟩, by
    rintro ⟨capacity, rfl⟩
    simp [Mailbox.ofCapacity]⟩

instance (past : List (Moment Hub Act)) : DecidablePred (Permitted past)
  | ⟨_, .enroll _, _⟩ => inferInstanceAs (Decidable (_ ∧ _))
  | ⟨_, .handle id, _⟩ => inferInstanceAs (Decidable (if Made id past then _ else _))
  | ⟨_, .withdraw _, _⟩ | ⟨_, .join _ _, _⟩ | ⟨_, .leave _ _, _⟩ | ⟨_, .broadcast _, _⟩
  | ⟨_, .drain, _⟩ | ⟨_, .take _ _, _⟩ => .isTrue trivial

instance (past : List (Moment Hub Act)) : Decidable (Proper past) :=
  inferInstanceAs (Decidable (∀ i, (h : i < past.length) → _))

namespace Journal

/-- A session is evicted by another one of its identity and taken out late; that one overflows while
a session of somebody else stays. -/
def lives : List Act :=
  [.handle (sessionOf "alice" 1).id, .handle (sessionOf "alice" 2).id,
    .handle (sessionOf "bob" 3).id, .enroll (sessionOf "alice" 1),
    .join (sessionOf "alice" 1).id "general", .enroll (sessionOf "alice" 2),
    .withdraw (sessionOf "alice" 1), .enroll (sessionOf "bob" 3),
    .join (sessionOf "bob" 3).id "general", .join (sessionOf "alice" 2).id "general",
    .broadcast ⟨"general", "first", none⟩, .take (sessionOf "bob" 3).id "first",
    .broadcast ⟨"general", "second", none⟩, .handle (sessionOf "alice" 2).id,
    .join (sessionOf "alice" 2).id "general", .broadcast ⟨"general", "third", none⟩]

theorem Run.lifecycle_of_lives :
    Proper (unwritten (play lives).1) ∧
    (play lives).2.hub.isClosed (sessionOf "alice" 2).id = true ∧
    ((play lives).2.answersOf (sessionOf "alice" 2).id).count true = 1 := by
  have hproper : Proper (unwritten (play lives).1) := by decide
  have hclosed : (play lives).2.hub.isClosed (sessionOf "alice" 2).id = true := by decide
  have henrolled : sessionOf "alice" 2 ∈ enrolled (unwritten (play lives).1) := by decide
  have hlife := Run.lifecycle (Run.of_play lives) hproper
  refine ⟨hproper, hclosed, ?_⟩
  rcases hlife.1 _ henrolled with ⟨hopen, -⟩ | ⟨-, -, hanswers⟩
  · exact absurd (hclosed.symm.trans hopen) (by simp)
  · exact hanswers

end Journal

end RoomRelay.Hub
