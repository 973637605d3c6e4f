import Mathlib.Data.List.Basic
import RoomRelay.Proofs.Gateway.Discipline

/-!
# What is left of an identity

Once all connections of an identity have ended, its marker should be cleared. Whoever takes out its
last session clears the marker and then looks at the hub again: if another session has come by then,
it sets the marker once more. That it was there when it was looked for does not mean that it is
still there when the marker is set. If that session has been taken out in between, and the marker
been cleared on that occasion, the marker is set after all and nobody clears it again. This file
shows that a marker is left behind in this way and in no other.

## Main definitions

* `Traffic.Settled` — all connections of an identity have ended
* `Traffic.SetsLate`, `Traffic.LeftBehind` — the marker was set too late, and not cleared since
* `Traffic.Reason`, `Traffic.Tended` — nobody is marked without a reason

## Main results

* `Traffic.Tended.step` — no step leaves a marker untended
* `Traffic.Run.marked_iff_leftBehind` — which markers are still set when all connections have ended
* `Traffic.marker_left_behind` — a run that leaves a marker behind
-/

namespace RoomRelay

open Routine

variable {g g' : Gateway} {before after : List Task} {errand : Errand} {request : Call}
variable {next : request.Reply → Routine errand.Result} {reply : request.Reply}
variable {userId : String}

/-- The routine is going to clear the marker of an identity, whatever the replies are. -/
abbrev Routine.Clears {α : Type} (userId : String) (r : Routine α) : Prop :=
  r.Reaches (.presence (.setOffline userId)) fun _ _ => True

/-- Whoever takes out the last session of an identity is going to clear its marker. -/
theorem clears_afterWithdraw (session : Session) (removed : Bool) :
    (afterWithdraw session ⟨removed, false⟩).Clears session.userId := by
  have hclear : (clearMarker session.userId).Clears session.userId := Or.inl rfl
  exact reaches_bind_of_forall _ fun _ => hclear.bind _

namespace Traffic

variable {t t' start : Traffic} {event : Event} {past : List (Moment Traffic Event)}
variable {m : Moment Traffic Event}

/-- Every connection of the identity that was started has been refused or has had its session taken
out, no session of the identity is registered, and no errand is at work. -/
structure Settled (userId : String) (t : Traffic) : Prop where
  rest : t.AtRest
  gone : ∀ id session, t.gateway.hub.registry.sessions.get? id = some session →
    session.userId ≠ userId
  ended : ∀ (session : Session) (result : Bool), session.userId = userId →
    ⟨.register session, .done result⟩ ∈ t.tasks →
      result = false ∨ ∃ removed : Bool, ⟨.unregister session, .done removed⟩ ∈ t.tasks

/-- Somebody who takes out a session sets the marker of the identity, which has no session any
more. -/
def SetsLate (userId : String) (m : Moment Traffic Event) : Prop :=
  (∃ session, m.event = .call (.unregister session) (.presence (.setOnline userId))) ∧
    m.before.gateway.hub.isPresent userId = false

/-- Somebody clears the marker of the identity. -/
def Event.Clears (userId : String) (event : Event) : Prop :=
  ∃ errand, event = .call errand (.presence (.setOffline userId))

/-- Somebody who took out a session set the marker of the identity when it had no session any more,
and nobody has cleared it since. -/
def LeftBehind (userId : String) (past : List (Moment Traffic Event)) : Prop :=
  ∃ earlier m later, past = earlier ++ m :: later ∧ SetsLate userId m ∧
    ∀ n ∈ later, ¬ n.event.Clears userId

theorem leftBehind_snoc : LeftBehind userId (past ++ [m]) ↔
    SetsLate userId m ∨ (¬ m.event.Clears userId ∧ LeftBehind userId past) := by
  constructor
  · rintro ⟨earlier, k, later, heq, hk, hlater⟩
    rcases List.eq_nil_or_concat later with rfl | ⟨rest, last, rfl⟩
    · obtain ⟨-, hm⟩ := List.append_inj' heq rfl
      obtain rfl := List.singleton_inj.mp hm
      exact Or.inl hk
    · rw [List.concat_eq_append, ← List.cons_append, ← List.append_assoc] at heq
      obtain ⟨rfl, hm⟩ := List.append_inj' heq rfl
      obtain rfl := List.singleton_inj.mp hm
      exact Or.inr ⟨hlater m (by simp), earlier, k, rest, rfl, hk,
        fun n hn => hlater n (by simp [hn])⟩
  · rintro (hm | ⟨hm, earlier, k, later, rfl, hk, hlater⟩)
    · exact ⟨past, m, [], rfl, hm, by simp⟩
    · refine ⟨earlier, k, later ++ [m], by simp, hk, ?_⟩
      intro n hn
      rcases List.mem_append.mp hn with hold | hnew
      · exact hlater n hold
      · rwa [List.mem_singleton.mp hnew]

/-- Why an identity may be marked: its marker was left behind, or it has a session that is still to
be taken out, or some task is going to clear the marker. -/
inductive Reason (userId : String) (past : List (Moment Traffic Event)) (t : Traffic) : Prop
  | leftBehind (left : LeftBehind userId past)
  | live {session : Session} (same : session.userId = userId) (live : Live session t)
  | clearing {task : Task} (mem : task ∈ t.tasks) (clears : task.rest.Clears userId)

/-- If the identity is marked, there is a reason for it. -/
def Tended (userId : String) (past : List (Moment Traffic Event)) (t : Traffic) : Prop :=
  userId ∈ t.gateway.presence.online → Reason userId past t

theorem Tended.begin (h : Tended userId past t) :
    Tended userId (past ++ [⟨t, .begin errand,
        { t with tasks := t.tasks ++ [⟨errand, errand.routine⟩] }⟩])
      { t with tasks := t.tasks ++ [⟨errand, errand.routine⟩] } := by
  intro hmarked
  cases h hmarked with
  | leftBehind hleft =>
    refine .leftBehind (leftBehind_snoc.mpr (Or.inr ⟨?_, hleft⟩))
    rintro ⟨_, heq⟩
    exact absurd heq (by simp)
  | live hsame hlive => exact .live hsame hlive.begin
  | clearing htask hclears => exact .clearing (List.mem_append_left _ htask) hclears

/-- A call that sets a marker has a reason: whoever makes it is registering a session, or is taking
one out while another one is there, or does so too late. -/
theorem Disciplined.reason_of_setOnline {next : Except DomainFailure Unit → Routine errand.Result}
    {reply : Except DomainFailure Unit}
    (hd : Disciplined
      ⟨g, before ++ ⟨errand, .call (.presence (.setOnline userId)) next⟩ :: after⟩) :
    Reason userId
      (past ++ [⟨⟨g, before ++ ⟨errand, .call (.presence (.setOnline userId)) next⟩ :: after⟩,
        .call errand (.presence (.setOnline userId)),
        ⟨g', before ++ ⟨errand, next reply⟩ :: after⟩⟩])
      ⟨g', before ++ ⟨errand, next reply⟩ :: after⟩ := by
  have hsound := hd.sound _ (mem_tasks_iff.mpr (Or.inl rfl))
  rcases hsound.of_setOnline with ⟨session, hsame, hadmitted⟩ | ⟨session, rfl⟩
  · exact .live hsame (hd.live_of_admitted hadmitted.answered)
  · cases hpresent : g.hub.isPresent userId with
    | false => exact .leftBehind (leftBehind_snoc.mpr (Or.inl ⟨⟨session, rfl⟩, hpresent⟩))
    | true =>
      obtain ⟨id, hcurrent⟩ := Option.isSome_iff_exists.mp hpresent
      obtain ⟨other, hother, hsame⟩ := hd.coherent.session_of_current hcurrent
      rcases (hd.live id other hother).call with hlives | hbegins
      · exact .live hsame hlives
      · -- Setting a marker is not how a session begins to be taken out.
        obtain ⟨hrequest, -⟩ := call_eq_of_unregister hbegins
        exact absurd hrequest (by simp)

/-- A session that begins to be taken out is succeeded by another one of its identity, or its task
is going to clear the marker. -/
theorem Disciplined.reason_of_withdraw {session : Session}
    (hd : Disciplined ⟨g, before ++ ⟨errand, .call request next⟩ :: after⟩)
    (answers : g.Answers request reply g')
    (hbegins : (⟨errand, .call request next⟩ : Task) =
      ⟨.unregister session, RoomRelay.unregister session⟩) :
    Reason session.userId past ⟨g', before ++ ⟨errand, next reply⟩ :: after⟩ := by
  have hd' := hd.call answers
  obtain ⟨rfl, hnext⟩ := call_eq_of_unregister hbegins
  obtain ⟨removed, superseded⟩ := reply
  cases superseded with
  | false =>
    refine .clearing (mem_tasks_iff.mpr (Or.inl rfl)) ?_
    rw [hnext ⟨removed, false⟩]
    exact clears_afterWithdraw session removed
  | true =>
    -- The identity has a session still, which is registered and so still to be taken out.
    obtain ⟨id, hcurrent⟩ := Option.isSome_iff_exists.mp answers.withdrawn.2.symm
    obtain ⟨other, hother, hsame⟩ := hd'.coherent.session_of_current hcurrent
    exact .live hsame (hd'.live id other hother)

theorem Tended.call
    (h : Tended userId past ⟨g, before ++ ⟨errand, .call request next⟩ :: after⟩)
    (hd : Disciplined ⟨g, before ++ ⟨errand, .call request next⟩ :: after⟩)
    (answers : g.Answers request reply g') :
    Tended userId
      (past ++ [⟨⟨g, before ++ ⟨errand, .call request next⟩ :: after⟩, .call errand request,
        ⟨g', before ++ ⟨errand, next reply⟩ :: after⟩⟩])
      ⟨g', before ++ ⟨errand, next reply⟩ :: after⟩ := by
  intro hmarked
  rcases answers.mem_online_iff.mp hmarked with rfl | ⟨hkeeps, hold⟩
  · exact hd.reason_of_setOnline
  · -- The identity was marked before, and the call does not clear the marker.
    cases h hold with
    | leftBehind hleft =>
      refine .leftBehind (leftBehind_snoc.mpr (Or.inr ⟨?_, hleft⟩))
      rintro ⟨_, heq⟩
      exact hkeeps (Event.call.inj heq).2
    | live hsame hlive =>
      subst hsame
      rcases hlive.call with hlives | hbegins
      · exact .live rfl hlives
      · exact hd.reason_of_withdraw answers hbegins
    | clearing htask hclears =>
      rcases mem_tasks_iff.mp htask with rfl | hother
      · rcases hclears with rfl | hclears
        · exact absurd rfl hkeeps
        · exact .clearing (mem_tasks_iff.mpr (Or.inl rfl)) (hclears reply trivial)
      · exact .clearing (mem_tasks_iff.mpr (Or.inr hother)) hclears

theorem Tended.handle {id : SessionId} {mailbox : Mailbox} (h : Tended userId past t) :
    Tended userId
      (past ++ [⟨t, .handle id,
        { t with gateway.hub := t.gateway.hub.setMailbox id mailbox }⟩])
      { t with gateway.hub := t.gateway.hub.setMailbox id mailbox } := by
  intro hmarked
  cases h hmarked with
  | leftBehind hleft =>
    refine .leftBehind (leftBehind_snoc.mpr (Or.inr ⟨?_, hleft⟩))
    rintro ⟨_, heq⟩
    exact absurd heq (by simp)
  | live hsame hlive => exact .live hsame ⟨hlive.admitted, hlive.untouched⟩
  | clearing htask hclears => exact .clearing htask hclears

/-- No step leaves a marker untended. -/
theorem Tended.step (h : Tended userId past t) (hd : Disciplined t)
    (step : Step Orderly t event t') : Tended userId (past ++ [⟨t, event, t'⟩]) t' := by
  cases step with
  | begin => exact h.begin
  | call answers => exact h.call hd answers
  | handle => exact h.handle

theorem Run.tended (run : Run Orderly start past t) (empty : start.gateway.hub.registry = {})
    (idle : start.tasks = []) (unmarked : userId ∉ start.gateway.presence.online) :
    Tended userId past t := by
  induction run with
  | nil => exact fun hmarked => absurd hmarked unmarked
  | snoc run step ih => exact ih.step (Run.disciplined run empty idle) step

/-- Only clearing it takes a marker away that was left behind. -/
theorem Run.marked_of_leftBehind {may : Traffic → Errand → Prop} (run : Run may start past t)
    (h : LeftBehind userId past) : userId ∈ t.gateway.presence.online := by
  induction run with
  | nil =>
    obtain ⟨earlier, m, later, heq, -⟩ := h
    exact absurd heq (by simp)
  | snoc _ step ih =>
    rcases leftBehind_snoc.mp h with ⟨⟨session, hset⟩, -⟩ | ⟨hkeeps, hleft⟩
    · cases step with
      | begin => exact absurd hset (by simp)
      | call answers =>
        exact answers.mem_online_iff.mpr (Or.inl (Event.call.inj hset).2)
      | handle => exact absurd hset (by simp)
    · cases step with
      | begin => exact ih hleft
      | @call _ _ _ _ errand _ _ _ answers =>
        refine answers.mem_online_iff.mpr (Or.inr ⟨?_, ih hleft⟩)
        rintro rfl
        exact hkeeps ⟨errand, rfl⟩
      | handle => exact ih hleft

/-- Once all connections of an identity have ended, it has no session that is still to be taken
out. -/
theorem Settled.not_live {session : Session} (h : Settled userId t)
    (hsame : session.userId = userId) : ¬ Live session t := by
  rintro ⟨⟨task, htask, hadmitted⟩, huntouched⟩
  cases hadmitted with
  | @intro rest hwithin =>
    have hdone := h.rest _ htask
    cases rest with
    | call => exact hdone
    | done result =>
      -- It was admitted, so it has been taken out, and that has begun therefore.
      rcases h.ended session result hsame htask with hrefused | ⟨removed, hremoved⟩
      · rw [within_done.mp hwithin] at hrefused
        exact absurd hrefused (by simp)
      · obtain ⟨-, hrest⟩ := Task.mk.inj (huntouched _ hremoved rfl)
        rw [unregister_eq] at hrest
        exact absurd (eq_of_heq hrest) (by simp)

/-- **What is left of an identity.** Take any run of connections that starts without sessions and
without the marker of an identity. Once all connections of the identity have ended and no errand is
at work, the marker is set if and only if somebody who took out a session set it at a moment when
the identity had no session any more, and nobody has cleared it since. -/
theorem Run.marked_iff_leftBehind (run : Run Orderly start past t)
    (empty : start.gateway.hub.registry = {}) (idle : start.tasks = [])
    (unmarked : userId ∉ start.gateway.presence.online) (settled : Settled userId t) :
    userId ∈ t.gateway.presence.online ↔ LeftBehind userId past := by
  constructor
  · intro hmarked
    cases run.tended empty idle unmarked hmarked with
    | leftBehind hleft => exact hleft
    | live hsame hlive => exact absurd hlive (settled.not_live hsame)
    | @clearing task htask hclears =>
      -- A task that is still to clear the marker is not done.
      have hdone := settled.rest task htask
      obtain ⟨errand, rest⟩ := task
      cases rest with
      | done _ => exact hclears.elim
      | call _ _ => exact hdone.elim
  · exact run.marked_of_leftBehind

/-- A session is taken out and its marker cleared. Another session of the identity comes, is seen,
and is taken out with everything that belongs to it. Then the marker is set for its sake. -/
def lateRestoring : List Move :=
  .begin (.register (Hub.sessionOf "alice" 1)) :: Move.steps 0 3 ++
  .begin (.unregister (Hub.sessionOf "alice" 1)) :: Move.steps 1 3 ++
  .begin (.register (Hub.sessionOf "alice" 2)) :: Move.steps 2 3 ++ Move.steps 1 1 ++
  .begin (.unregister (Hub.sessionOf "alice" 2)) :: Move.steps 3 4 ++ Move.steps 1 1

theorem settled_lateRestoring : Settled "alice" (idle.play Orderly lateRestoring).2 := by
  have htasks : (idle.play Orderly lateRestoring).2.tasks =
      [⟨.register (Hub.sessionOf "alice" 1), .done true⟩,
        ⟨.unregister (Hub.sessionOf "alice" 1), .done true⟩,
        ⟨.register (Hub.sessionOf "alice" 2), .done true⟩,
        ⟨.unregister (Hub.sessionOf "alice" 2), .done true⟩] := rfl
  have hsessions : (idle.play Orderly lateRestoring).2.gateway.hub.registry.sessions = {} := rfl
  refine ⟨by decide, ?_, ?_⟩
  · intro id session hs
    rw [hsessions] at hs
    exact absurd hs (by simp)
  · intro session result _ hmem
    rw [htasks] at hmem ⊢
    generalize Hub.sessionOf "alice" 1 = first at hmem ⊢
    generalize Hub.sessionOf "alice" 2 = second at hmem ⊢
    simp only [List.mem_cons, Task.mk.injEq, Errand.register.injEq, reduceCtorEq, false_and,
      false_or, List.not_mem_nil, or_false] at hmem
    rcases hmem with ⟨rfl, -⟩ | ⟨rfl, -⟩ <;> exact Or.inr ⟨true, by simp⟩

theorem Run.marked_iff_leftBehind_of_lateRestoring :
    Settled "alice" (idle.play Orderly lateRestoring).2 ∧
    LeftBehind "alice" (idle.play Orderly lateRestoring).1 := by
  have hmarked : "alice" ∈ (idle.play Orderly lateRestoring).2.gateway.presence.online := by
    decide
  have hiff := Run.marked_iff_leftBehind (Run.of_play lateRestoring) rfl rfl (by decide)
    settled_lateRestoring
  exact ⟨settled_lateRestoring, hiff.mp hmarked⟩

/-- A marker that should have been cleared is left behind. -/
theorem marker_left_behind : ∃ past t, Run Orderly idle past t ∧ Settled "alice" t ∧
    "alice" ∈ t.gateway.presence.online :=
  ⟨_, _, Run.of_play lateRestoring, settled_lateRestoring, by decide⟩

end Traffic

end RoomRelay
