import RoomRelay.Proofs.Connection.Conduct
import RoomRelay.Proofs.Connection.Teardown
import RoomRelay.Timeline

/-!
# Rounds are runs

The timeline lets connections act in rounds, and each call is answered at its time. What comes out
of that is one of the many ways in which the same connections may be interleaved, so whatever holds
of all runs of connections side by side holds of the timeline.

Nobody is announced meanwhile who is to be registered while a marker is cleared.

## Main definitions

* `Timeline.concourse` — the connections of a timeline
* `Timeline.Becomes` — from one timeline to another one

## Main results

* `Timeline.becomes_runUntil` — time passes
* `Timeline.reaches_connect`, `Timeline.becomes_updateLink` — clients come, send and go
* `Timeline.reaches_perform`, `Timeline.reaches_stop` — errands that somebody waits for
* `Timeline.registry_eq_of_over` — what is left when all connections are over
-/

namespace RoomRelay

open Routine

variable {α : Type}

namespace Timeline

variable {t t' t'' : Timeline}

/-- The connections of a timeline, with what is still done beside them. -/
def concourse (t : Timeline) (strays : List Stray) (tasks : List Task) : Concourse :=
  ⟨t.scene.gateway, t.links, strays, tasks⟩

/-- A timeline comes from one state to another one as its connections might do without it. -/
structure Becomes (t t' : Timeline) : Prop where
  reaches : ∀ strays tasks, ∃ strays',
    Concourse.Reaches t.limits (t.concourse strays tasks) (t'.concourse strays' tasks)
  alone : t'.scene.newcomer = none
  limits_eq : t'.limits = t.limits

theorem Becomes.refl (alone : t.scene.newcomer = none) : t.Becomes t :=
  ⟨fun strays _ => ⟨strays, .refl _⟩, alone, rfl⟩

theorem Becomes.trans (h : t.Becomes t') (h' : t'.Becomes t'') : t.Becomes t'' := by
  refine ⟨?_, h'.alone, h'.limits_eq.trans h.limits_eq⟩
  intro strays tasks
  obtain ⟨strays', hreaches⟩ := h.reaches strays tasks
  obtain ⟨strays'', hreaches'⟩ := h'.reaches strays' tasks
  rw [h.limits_eq] at hreaches'
  exact ⟨strays'', hreaches.trans hreaches'⟩

theorem reaches_mapM {f : Link → StateM Scene Link} {limits : HubConfig}
    (hf : ∀ (l : Link) (s : Scene), s.newcomer = none → l.Acts limits s ((f l).run s))
    (links before : List Link) (s : Scene) (strays : List Stray) (tasks : List Task)
    (alone : s.newcomer = none) :
    ((links.mapM f).run s).2.newcomer = none ∧ ∃ strays',
      Concourse.Reaches limits ⟨s.gateway, before ++ links, strays, tasks⟩
        ⟨((links.mapM f).run s).2.gateway, before ++ ((links.mapM f).run s).1, strays', tasks⟩ := by
  -- Whoever has acted already stands before those whose turn is still to come.
  induction links generalizing before s strays with
  | nil => exact ⟨alone, strays, .refl _⟩
  | cons l links ih =>
    obtain ⟨hdoes, halone⟩ := hf l s alone
    have heq : ((l :: links).mapM f).run s =
        (((f l).run s).1 :: ((links.mapM f).run ((f l).run s).2).1,
          ((links.mapM f).run ((f l).run s).2).2) := by
      simp [List.mapM_cons]
      rfl
    obtain ⟨strays', hfirst⟩ := hdoes before links strays tasks
    obtain ⟨hnone, strays'', hrest⟩ :=
      ih (before ++ [((f l).run s).1]) ((f l).run s).2 strays' halone
    rw [heq]
    refine ⟨hnone, strays'', hfirst.trans ?_⟩
    simpa using hrest

theorem becomes_each {f : Link → StateM Scene Link}
    (hf : ∀ (l : Link) (s : Scene), s.newcomer = none → l.Acts t.limits s ((f l).run s))
    (alone : t.scene.newcomer = none) : t.Becomes (t.each f) := by
  -- A round is one action of each connection in turn.
  have hsame : t.each f =
      { t with
        links := ((t.links.mapM f).run t.scene).1, scene := ((t.links.mapM f).run t.scene).2 } :=
    rfl
  rw [hsame]
  refine ⟨?_, ?_, rfl⟩
  · intro strays tasks
    exact (reaches_mapM hf t.links [] t.scene strays tasks alone).2
  · exact (reaches_mapM hf t.links [] t.scene [] [] alone).1

theorem becomes_round (alone : t.scene.newcomer = none) : t.Becomes t.round := by
  have hread : t.Becomes (t.each (Link.read t.limits)) :=
    becomes_each (fun _ _ => Link.acts_read) alone
  have hwrite := becomes_each (fun _ _ => Link.acts_write) hread.alone
  have hdrive := becomes_each (fun _ _ => Link.acts_drive) hwrite.alone
  exact (hread.trans hwrite).trans hdrive

theorem becomes_rounds (count : Nat) (alone : t.scene.newcomer = none) :
    t.Becomes (rounds count t) := by
  induction count generalizing t with
  | zero => exact .refl alone
  | succ count ih =>
    have hround := becomes_round alone
    exact hround.trans (ih hround.alone)

theorem becomes_at (moment : Nat) (alone : t.scene.newcomer = none) :
    t.Becomes (t.at_ moment) := by
  refine ⟨fun strays tasks => ⟨strays, ?_⟩, alone, rfl⟩
  have hstep : Concourse.Step t.limits (t.concourse strays tasks) .quiet
      ((t.at_ moment).concourse strays tasks) := .elsewhere rfl
  exact hstep.reaches

theorem becomes_settle_at (moment : Nat) (alone : t.scene.newcomer = none) :
    t.Becomes (t.at_ moment).settle := by
  have hmoment := becomes_at moment alone
  exact hmoment.trans (becomes_rounds _ hmoment.alone)

/-- Time passes, and everything happens at its time. -/
theorem becomes_runFrom (target moment : Nat) (alone : t.scene.newcomer = none) :
    t.Becomes (runFrom target moment t) := by
  fun_induction runFrom target moment t with
  | case1 moment t settled next hnext hlater ih =>
    have hsettled := becomes_settle_at moment alone
    exact hsettled.trans (ih hsettled.alone)
  | case2 moment t settled next hnext hlate =>
    have hsettled := becomes_settle_at moment alone
    exact hsettled.trans (becomes_at target hsettled.alone)
  | case3 moment t settled hnone =>
    have hsettled := becomes_settle_at moment alone
    exact hsettled.trans (becomes_at target hsettled.alone)

theorem becomes_runUntil (target : Nat) (alone : t.scene.newcomer = none) :
    t.Becomes (t.runUntil target) :=
  becomes_runFrom target t.now alone

/-! ### Clients -/

/-- What clients do by themselves changes no session and no phase. -/
theorem becomes_updateLink {id : SessionId} {f : Link → Link}
    (hsession : ∀ l, (f l).session = l.session) (hphase : ∀ l, (f l).phase = l.phase)
    (alone : t.scene.newcomer = none) : t.Becomes (t.updateLink id f) := by
  -- It is a round in which one connection changes and the others do nothing.
  have heach : t.each (fun l => pure (if l.session.id = id then f l else l)) =
      t.updateLink id f := by
    simp [each, updateLink, List.mapM_pure]
    rfl
  rw [← heach]
  refine becomes_each ?_ alone
  intro l s hs
  refine ⟨?_, hs⟩
  by_cases hid : l.session.id = id
  · have heq : (pure (if l.session.id = id then f l else l) : StateM Scene Link).run s =
        (f l, s) := by
      rw [if_pos hid]
      rfl
    rw [heq]
    exact Link.does_client (hsession l) (hphase l)
  · have heq : (pure (if l.session.id = id then f l else l) : StateM Scene Link).run s =
        (l, s) := by
      rw [if_neg hid]
      rfl
    rw [heq]
    exact .refl _ _

theorem becomes_send {id : SessionId} {item : Incoming} (alone : t.scene.newcomer = none) :
    t.Becomes (t.send id item) :=
  becomes_updateLink (fun _ => rfl) (fun _ => rfl) alone

theorem becomes_hangUp {id : SessionId} (alone : t.scene.newcomer = none) :
    t.Becomes (t.hangUp id) :=
  becomes_updateLink (fun _ => rfl) (fun _ => rfl) alone

theorem becomes_widen {id : SessionId} {room : Option Nat} (alone : t.scene.newcomer = none) :
    t.Becomes (t.widen id room) :=
  becomes_updateLink (fun _ => rfl) (fun _ => rfl) alone

/-- A client connects whose session is a new one. -/
theorem reaches_connect {userId : String} {sink : Sink} {isSocket : Bool} {strays : List Stray}
    {tasks : List Task} (alone : t.scene.newcomer = none)
    (fresh : (t.concourse strays tasks).Fresh
      (t.scene.gateway.newSession userId t.limits.queueCapacity).1.id) :
    ((connect userId sink isSocket).run t).2.scene.newcomer = none ∧ ∃ strays',
      Concourse.Reaches t.limits (t.concourse strays tasks)
        (((connect userId sink isSocket).run t).2.concourse strays' tasks) := by
  generalize hmade : t.scene.gateway.newSession userId t.limits.queueCapacity = made at fresh
  obtain ⟨session, gateway⟩ := made
  -- The phase is the one that registering leads to, so this one does not matter.
  let l : Link := { session, phase := .over, sink, isSocket }
  have hcarries : Carries { t.scene with gateway } (register l.session) _ :=
    carries_proceed (register l.session) alone
  generalize hout : (register l.session).proceed.run { t.scene with gateway } = outcome at hcarries
  obtain ⟨progress, scene⟩ := outcome
  have heq : ((connect userId sink isSocket).run t).2 =
      { t with scene, links := t.links ++ [l.entered t.limits t.now progress] } := by
    simp only [connect, StateT.run_bind, StateT.run_get, pure_bind, hmade]
    rw [show (register session).proceed.run { t.scene with gateway } = (progress, scene) from hout]
    rfl
  rw [heq]
  refine ⟨hcarries.alone, ?_⟩
  exact Concourse.reaches_connect hmade fresh hcarries.leads

/-! ### Errands that somebody waits for -/

/-- A call that is answered once it has taken its time, while connections go on. -/
def answering (request : Call) : StateM Timeline request.Reply :=
  awaitAll (fun moment => modify (·.runUntil moment)) request

theorem run_perform_call {request : Call} {next : request.Reply → Routine α} :
    (perform (.call request next)).run t =
      (perform (next ((answering request).run t).1)).run ((answering request).run t).2 :=
  rfl

theorem becomes_remember (request : Call) (alone : t.scene.newcomer = none) :
    t.Becomes { t with scene := t.scene.remember request } := by
  refine ⟨fun strays tasks => ⟨strays, ?_⟩, Scene.newcomer_remember.trans alone, rfl⟩
  have hsame : ({ t with scene := t.scene.remember request } : Timeline).concourse strays tasks =
      t.concourse strays tasks := by
    simp [concourse, Scene.gateway_remember]
  rw [hsame]
  exact .refl _

/-- The timeline once a call has begun and taken its time. -/
def waited (t : Timeline) (request : Call) : Timeline :=
  let begun : Timeline := { t with scene := t.scene.remember request }
  let delay := (begun.scene.obstacle request).delay
  if delay ≠ 0 then begun.runUntil (begun.now + delay) else begun

theorem becomes_waited (request : Call) (alone : t.scene.newcomer = none) :
    t.Becomes (t.waited request) := by
  have hremember := becomes_remember request alone
  unfold waited
  dsimp only
  split
  · exact hremember.trans (becomes_runUntil _ hremember.alone)
  · exact hremember

/-- Nobody is registered whom nobody has announced. -/
theorem run_welcome {request : Call} {reason : Option String} (alone : t.scene.newcomer = none) :
    StateT.run (m := Id)
      (modifyGetThe Timeline (onScene (modifyGet (Scene.welcome request reason)))) t =
      (none, t) := by
  have hwelcome : t.scene.welcome request reason = (none, t.scene) := Scene.welcome_of_alone alone
  change (match t.scene.welcome request reason with
    | (a, scene) => (a, ({ t with scene } : Timeline))) = _
  rw [hwelcome]

/-- Whoever waits for a call waits until its time has come, and then has the answer. -/
theorem run_answering (request : Call) (alone : t.scene.newcomer = none) :
    ∃ reason, (answering request).run t =
      (((t.waited request).scene.answer request reason).1,
        { t.waited request with
          scene := ((t.waited request).scene.answer request reason).2 }) := by
  let reason := ((t.scene.remember request).obstacle request).reason
  refine ⟨reason, ?_⟩
  have hawait : StateT.run (m := Id)
      (await (fun moment => modify (runUntil moment)) request : StateM Timeline _) t =
      ((((t.waited request).scene.answer request reason).1, reason),
        { t.waited request with
          scene := ((t.waited request).scene.answer request reason).2 }) := by
    unfold waited
    dsimp only
    change StateT.run (if Obstacle.delay _ ≠ 0 then _ else _) _ = _
    split
    · rfl
    · rfl
  have halone : ((t.waited request).scene.answer request reason).2.newcomer = none :=
    Scene.newcomer_answer.trans (becomes_waited request alone).alone
  unfold answering awaitAll
  rw [StateT.run_bind, hawait]
  change StateT.run (modifyGetThe Timeline (onScene (modifyGet (Scene.welcome request reason))) >>=
    _) _ = _
  rw [StateT.run_bind, run_welcome halone]
  rfl

/-- A call of an errand is answered once it has taken its time. -/
theorem reaches_answering {errand : Errand} {request : Call}
    {next : request.Reply → Routine errand.Result} {before after : List Task}
    {strays : List Stray} (alone : t.scene.newcomer = none) :
    ((answering request).run t).2.scene.newcomer = none ∧
      ((answering request).run t).2.limits = t.limits ∧ ∃ strays',
        Concourse.Reaches t.limits
          (t.concourse strays (before ++ ⟨errand, .call request next⟩ :: after))
          (((answering request).run t).2.concourse strays'
            (before ++ ⟨errand, next ((answering request).run t).1⟩ :: after)) := by
  have hbecomes := becomes_waited request alone
  obtain ⟨reason, heq⟩ := run_answering request alone
  obtain ⟨strays', hwait⟩ :=
    hbecomes.reaches strays (before ++ ⟨errand, .call request next⟩ :: after)
  have hanswer : Concourse.Step t.limits
      ((t.waited request).concourse strays' (before ++ ⟨errand, .call request next⟩ :: after))
      (.errand errand request) _ := .call (@Scene.replies_answer _ _ reason)
  rw [heq]
  exact ⟨Scene.newcomer_answer.trans hbecomes.alone, hbecomes.limits_eq, strays',
    hwait.trans hanswer.reaches⟩

/-- What is left of an errand is carried out while time passes. -/
theorem reaches_rest {errand : Errand} (r : Routine errand.Result) {before after : List Task}
    {strays : List Stray} (alone : t.scene.newcomer = none) :
    ((perform r).run t).2.scene.newcomer = none ∧ ((perform r).run t).2.limits = t.limits ∧
      ∃ strays', Concourse.Reaches t.limits (t.concourse strays (before ++ ⟨errand, r⟩ :: after))
        (((perform r).run t).2.concourse strays'
          (before ++ ⟨errand, .done ((perform r).run t).1⟩ :: after)) := by
  induction r generalizing t strays with
  | done a => exact ⟨alone, rfl, strays, .refl _⟩
  | call request next ih =>
    obtain ⟨halone, hlimits, strays', hfirst⟩ := @reaches_answering t errand request next before
      after strays alone
    obtain ⟨hnone, hlimits', strays'', hrest⟩ := @ih _ _ strays' halone
    rw [hlimits] at hrest
    rw [run_perform_call]
    exact ⟨hnone, hlimits'.trans hlimits, strays'', hfirst.trans hrest⟩

/-- An errand that is not about the session of a connection is carried out while time passes. -/
theorem reaches_perform {errand : Errand} {strays : List Stray} {tasks : List Task}
    (allowed : ∀ l ∈ t.links, errand.subject? ≠ some l.session.id)
    (alone : t.scene.newcomer = none) :
    ((perform errand.routine).run t).2.scene.newcomer = none ∧
      ((perform errand.routine).run t).2.limits = t.limits ∧ ∃ strays',
        Concourse.Reaches t.limits (t.concourse strays tasks)
          (((perform errand.routine).run t).2.concourse strays'
            (tasks ++ [⟨errand, .done ((perform errand.routine).run t).1⟩])) := by
  have hbegin : Concourse.Step t.limits (t.concourse strays tasks) .quiet
      (t.concourse strays (tasks ++ [⟨errand, errand.routine⟩])) := by
    refine .begin ?_
    intro session hsession
    obtain ⟨l, hl, rfl⟩ := List.mem_map.mp hsession
    exact allowed l hl
  obtain ⟨hnone, hlimits, strays', hrest⟩ := @reaches_rest t errand errand.routine tasks []
    strays alone
  exact ⟨hnone, hlimits, strays', hbegin.reaches.trans hrest⟩

/-- The server stops: sessions are closed, and connections go on for a while. -/
theorem reaches_stop {grace busyUntil : Nat} {strays : List Stray} {tasks : List Task}
    (alone : t.scene.newcomer = none) :
    ((stop grace busyUntil).run t).2.scene.newcomer = none ∧ ∃ strays' count,
      Concourse.Reaches t.limits (t.concourse strays tasks)
        (((stop grace busyUntil).run t).2.concourse strays'
          (tasks ++ [⟨.shutdown, .done count⟩])) := by
  have heq : ((stop grace busyUntil).run t).2 = ((perform shutdown).run t).2.runUntil
      (stopMoment grace ((perform shutdown).run t).2.now busyUntil) := rfl
  have hnobody : ∀ l ∈ t.links, Errand.shutdown.subject? ≠ some l.session.id := by
    intro l _ hid
    exact absurd hid nofun
  obtain ⟨hnone, hlimits, strays', hshutdown⟩ := @reaches_perform t .shutdown strays tasks
    hnobody alone
  have hafter := becomes_runUntil
    (stopMoment grace ((perform shutdown).run t).2.now busyUntil) hnone
  obtain ⟨strays'', hpassed⟩ := hafter.reaches strays' _
  rw [hlimits] at hpassed
  rw [heq]
  exact ⟨hafter.alone, strays'', _, hshutdown.trans hpassed⟩

/-! ### What is left -/

/-- When all connections are over that there have been, and nobody else was to register a session,
nothing is registered. -/
theorem registry_eq_of_over {limits : HubConfig} {start : Concourse} {strays : List Stray}
    {tasks : List Task} (h : Concourse.Reaches limits start (t.concourse strays tasks))
    (idle : start.Idle) (drivers : ∀ task ∈ tasks, task.errand.enrollee? = none)
    (ended : ∀ l ∈ t.links, l.phase = .over) :
    t.scene.gateway.hub.registry = { closed := t.scene.gateway.hub.registry.closed } := by
  obtain ⟨past, run⟩ := h
  exact (run.sound idle).eq_of_over drivers ended

end Timeline

end RoomRelay
