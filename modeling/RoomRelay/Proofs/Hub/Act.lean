import RoomRelay.Hub
import RoomRelay.Proofs.Registry.Coherence
import RoomRelay.Proofs.Trace

/-!
# Runs of the hub

What happens to the hub is one act after another: sessions and members come and go, frames are
broadcast, everything is closed for good, and at the other ends of the queues frames are taken. A
broadcast reaches the members of its room in any order. This file gives the acts as a step relation,
and shows that the four tables of the registry agree in every state that a run can reach.

## Main definitions

* `Hub.Act`, `Hub.Step`, `Hub.Run` — what can happen, and runs
* `Hub.after?`, `Hub.play` — acts carried out
* `Hub.DistinctIds` — no two sessions that were ever registered share an identifier

## Main results

* `Hub.Step.indexed` — rooms and joined rooms stay two sides of one relation
* `Hub.Run.coherent`, `Hub.Run.tables_agree` — all four tables agree after every run
-/

namespace RoomRelay.Hub

variable {hub hub' start : Hub} {id other : SessionId} {session : Session} {userId : String}

/-- What can happen to the hub in one undivided step. -/
inductive Act
  /-- A session is to be registered. -/
  | enroll (session : Session)
  /-- A session is to be taken out. -/
  | withdraw (session : Session)
  /-- A session joins a room. -/
  | join (id : SessionId) (roomId : String)
  /-- A session leaves a room. -/
  | leave (id : SessionId) (roomId : String)
  /-- A frame is offered to the members of a room. -/
  | broadcast (envelope : Envelope)
  /-- All sessions are closed for good. -/
  | drain
  /-- The frame that has waited longest is taken from the queue of a session. -/
  | take (id : SessionId) (frame : Frame)
  /-- Something else happens to the queue of a session, such as that it is made, that its receiving
  end is dropped, or that someone other than the hub closes it. -/
  | handle (id : SessionId)
  deriving DecidableEq

/-- One act on the hub. -/
inductive Step : Hub → Act → Hub → Prop
  | enroll {hub : Hub} {session : Session} : Step hub (.enroll session) (hub.enroll session).2
  | withdraw {hub : Hub} {session : Session} : Step hub (.withdraw session) (hub.withdraw session).2
  | join {hub : Hub} {id : SessionId} {roomId : String} :
    Step hub (.join id roomId) (hub.join id roomId).2
  | leave {hub : Hub} {id : SessionId} {roomId : String} :
    Step hub (.leave id roomId) (hub.leave id roomId).2
  | broadcast {hub : Hub} {envelope : Envelope} {order : List Session}
    (perm : order.Perm (hub.registry.members envelope.roomId)) :
    Step hub (.broadcast envelope) (hub.broadcastTo order envelope).2
  | drain {hub : Hub} : Step hub .drain hub.drain.2
  | take {hub : Hub} {id : SessionId} {frame : Frame} {rest : Mailbox}
    (taken : (hub.mailbox id).take = some (frame, rest)) :
    Step hub (.take id frame) (hub.setMailbox id rest)
  | handle {hub : Hub} {id : SessionId} {m : Mailbox} : Step hub (.handle id) (hub.setMailbox id m)

/-- A run of the hub. -/
abbrev Run (start : Hub) (past : List (Moment Hub Act)) (last : Hub) : Prop :=
  Trace Step start past last

/-- The session that an act is to register. -/
def Act.enrollee? : Act → Option Session
  | enroll session => some session
  | _ => none

/-- The sessions that were to be registered in the course of a run, in their order. -/
def enrolled (past : List (Moment Hub Act)) : List Session :=
  past.filterMap fun m => m.event.enrollee?

/-- Sessions that were to be registered in the course of a run are the same if their identifiers
are. -/
def DistinctIds (past : List (Moment Hub Act)) : Prop :=
  (enrolled past).Pairwise fun s t => s.id = t.id → s = t

instance (past : List (Moment Hub Act)) : Decidable (DistinctIds past) :=
  inferInstanceAs (Decidable (List.Pairwise _ _))

theorem enrolled_snoc {past : List (Moment Hub Act)} {m : Moment Hub Act} :
    enrolled (past ++ [m]) = enrolled past ++ m.event.enrollee?.toList :=
  filterMap_snoc _ _ _

/-! ### Acts carried out -/

/-- What an act makes of the hub if broadcasts go through the members of a room in the order in
which they came; `none` if the act cannot happen. -/
def after? (hub : Hub) : Act → Option Hub
  | .enroll session => some (hub.enroll session).2
  | .withdraw session => some (hub.withdraw session).2
  | .join id roomId => some (hub.join id roomId).2
  | .leave id roomId => some (hub.leave id roomId).2
  | .broadcast envelope => some (hub.broadcast envelope).2
  | .drain => some hub.drain.2
  | .take id frame =>
    match (hub.mailbox id).take with
    | some (first, rest) => if first = frame then some (hub.setMailbox id rest) else none
    | none => none
  | .handle id => some (hub.setMailbox id (hub.mailbox id).dropReceiver)

theorem Step.of_after? {act : Act} (h : hub.after? act = some hub') : Step hub act hub' := by
  cases act with
  | enroll => exact Option.some_inj.mp h ▸ .enroll
  | withdraw => exact Option.some_inj.mp h ▸ .withdraw
  | join => exact Option.some_inj.mp h ▸ .join
  | leave => exact Option.some_inj.mp h ▸ .leave
  | broadcast => exact Option.some_inj.mp h ▸ .broadcast (.refl _)
  | drain => exact Option.some_inj.mp h ▸ .drain
  | take id frame =>
    simp only [after?] at h
    split at h
    · rename_i first rest htake
      split at h
      · rename_i hfirst
        subst hfirst
        exact Option.some_inj.mp h ▸ .take htake
      · exact absurd h (by simp)
    · exact absurd h (by simp)
  | handle => exact Option.some_inj.mp h ▸ .handle

/-- The run that some acts lead to; those that cannot happen are left out. -/
def play (hub : Hub) (acts : List Act) : List (Moment Hub Act) × Hub :=
  Trace.follow (fun hub act => (hub.after? act).map fun hub' => (act, hub')) hub acts

theorem Run.of_play (acts : List Act) : Run start (start.play acts).1 (start.play acts).2 := by
  refine Trace.of_follow ?_ acts
  intro hub act event hub' h
  obtain ⟨after, hafter, heq⟩ := Option.map_eq_some_iff.mp h
  obtain ⟨rfl, rfl⟩ := Prod.mk.inj heq
  exact .of_after? hafter

/-- The session that gets the identifier of a serial number. -/
def sessionOf (userId : String) (serial : Nat) : Session := ⟨.version4 serial, userId⟩

/-! ### What an act does to the registry -/

@[simp] theorem registry_close : (hub.close id).2.registry = hub.registry := rfl

theorem registry_enroll : (hub.enroll session).2.registry =
    if hub.registry.closed then hub.registry else (hub.registry.insert session).2 := by
  unfold enroll
  split
  · rfl
  · split <;> simp [*]

theorem remove_eq_none_iff : hub.remove id = none ↔ hub.registry.contains id = false := by
  rw [remove, Option.map_eq_none_iff, Registry.remove_eq_none_iff, Registry.contains,
    Table.contains, Option.isSome_eq_false_iff, Option.isNone_iff_eq_none]

theorem removed_of_remove (h : hub.remove id = some hub') :
    ∃ found, hub.registry.Removed id found hub'.registry := by
  obtain ⟨⟨found, r⟩, hr, rfl⟩ := Option.map_eq_some_iff.mp h
  exact ⟨found, Registry.removed_of_remove hr⟩

/-- Withdrawing a session takes it out of the hub, or does nothing at all. -/
theorem withdraw_cases (hub : Hub) (session : Session) :
    (hub.registry.contains session.id = false ∧ (hub.withdraw session).2 = hub) ∨
    hub.remove session.id = some (hub.withdraw session).2 := by
  unfold withdraw
  cases hr : hub.remove session.id with
  | none => exact Or.inl ⟨remove_eq_none_iff.mp hr, rfl⟩
  | some rest => exact Or.inr rfl

theorem contains_withdraw (hub : Hub) (session : Session) :
    (hub.withdraw session).2.registry.contains session.id = false := by
  rcases withdraw_cases hub session with ⟨habsent, he⟩ | hr
  · rwa [he]
  · obtain ⟨found, hfound⟩ := removed_of_remove hr
    rw [← Bool.not_eq_true, hfound.contains_iff]
    exact fun hc => hc.1 rfl

/-- Offering a frame to a session leaves the registry alone, or takes the session out. -/
theorem offer_cases (hub : Hub) (session : Session) (frame : Frame) (report : BroadcastReport) :
    (offer frame (report, hub) session).2.registry = hub.registry ∨
    hub.remove session.id = some (offer frame (report, hub) session).2 := by
  unfold offer enqueue
  cases (hub.mailbox session.id).enqueue frame with
  | ok m => exact Or.inl rfl
  | error fault =>
    cases fault with
    | closed => exact Or.inl rfl
    | full =>
      cases hr : hub.remove session.id with
      | none => exact Or.inl (by simp [Functor.map, Except.map])
      | some rest => exact Or.inr (by simp [Functor.map, Except.map])

/-- A broadcast changes the registry only by taking sessions out. -/
theorem registry_broadcastTo {P : Registry → Prop} {members : List Session} {envelope : Envelope}
    (hremoved : ∀ {r r' : Registry} {id session}, r.Removed id session r' → P r → P r')
    (h : P hub.registry) : P (hub.broadcastTo members envelope).2.registry := by
  -- The induction is on the members that are left, for any state of the report and the hub.
  have hfold : ∀ (ms : List Session) (state : BroadcastReport × Hub), P state.2.registry →
      P (ms.foldl (offer envelope.frame) state).2.registry := by
    intro ms
    induction ms with
    | nil => exact fun _ hs => hs
    | cons m ms ih =>
      rintro ⟨report, hub⟩ hs
      apply ih
      rcases offer_cases hub m envelope.frame report
        with he | hr
      · rwa [he]
      · obtain ⟨found, hfound⟩ := removed_of_remove hr
        exact hremoved hfound hs
  exact hfold _ _ h

theorem registry_drain : hub.drain.2.registry = hub.registry.drain.2 := by
  -- Closing the queues one after the other leaves the registry alone.
  have hfold : ∀ (sessions : List Session) (h : Hub),
      (sessions.foldl (fun h s => (h.close s.id).2) h).registry = h.registry := by
    intro sessions
    induction sessions with
    | nil => exact fun _ => rfl
    | cons s sessions ih => exact fun h => ih _
  exact hfold _ _

/-- What registering, taking out, joining, leaving and closing keep of the registry, every act
keeps. -/
theorem Step.registry_preserves {P : Registry → Prop} {act : Act} (step : Step hub act hub')
    (hinsert : ∀ session, act = .enroll session → hub.registry.closed = false →
      P hub.registry → P (hub.registry.insert session).2)
    (hremoved : ∀ {r r' : Registry} {id session}, r.Removed id session r' → P r → P r')
    (hjoin : ∀ {r : Registry} {id roomId}, P r → P (r.join id roomId).2)
    (hleave : ∀ {r : Registry} {id roomId}, P r → P (r.leave id roomId).2)
    (hdrain : ∀ {r : Registry}, P r → P r.drain.2)
    (h : P hub.registry) : P hub'.registry := by
  cases step with
  | @enroll session =>
    rw [registry_enroll]
    split
    · -- A closed hub admits nobody.
      exact h
    · rename_i hopen
      exact hinsert session rfl (Bool.eq_false_iff.mpr hopen) h
  | @withdraw session =>
    rcases withdraw_cases hub session with ⟨-, he⟩ | hr
    · rwa [he]
    · obtain ⟨found, hfound⟩ := removed_of_remove hr
      exact hremoved hfound h
  | join => exact hjoin h
  | leave => exact hleave h
  | broadcast => exact registry_broadcastTo hremoved h
  | drain =>
    rw [registry_drain]
    exact hdrain h
  | take => exact h
  | handle => exact h

/-! ### The tables agree -/

/-- Every act keeps rooms and joined rooms in step, whatever identifiers sessions have. -/
theorem Step.indexed {act : Act} (step : Step hub act hub') (h : hub.registry.Indexed) :
    hub'.registry.Indexed :=
  step.registry_preserves (fun _ _ hopen hi => hi.insert hopen) (fun hr hi => hi.removed hr)
    (fun hi => hi.join) (fun hi => hi.leave) (fun _ => .drain) h

/-- Every act keeps all four tables in step, as long as a session to be registered does not bring
along the identifier of another identity's session. -/
theorem Step.coherent {act : Act} (step : Step hub act hub') (h : hub.registry.Coherent)
    (hfits : ∀ session, act = .enroll session → hub.registry.Fits session) :
    hub'.registry.Coherent :=
  step.registry_preserves (fun s ha hopen hc => hc.insert hopen (hfits s ha))
    (fun hr hc => hc.removed hr) (fun hc => hc.join) (fun hc => hc.leave) (fun _ => .drain) h

/-- A session that is registered after an act was registered before, or the act was to register
it. -/
theorem Step.registered {act : Act} (step : Step hub act hub')
    (h : hub'.registry.sessions.get? id = some session) :
    hub.registry.sessions.get? id = some session ∨ act = .enroll session := by
  -- Of all that an act does to the registry, only registering adds a session.
  refine step.registry_preserves (P := fun r => r.sessions.get? id = some session →
    hub.registry.sessions.get? id = some session ∨ act = .enroll session) ?_ ?_ ?_ ?_ ?_ Or.inl h
  · intro s ha _ ih hs
    rcases Registry.registered_of_insert hs with rfl | hold
    · exact Or.inr ha
    · exact ih hold
  · intro r r' k s hr ih hs
    exact ih (hr.registered_of_registered hs)
  · intro r k q ih hs
    rw [Registry.sessions_join] at hs
    exact ih hs
  · intro r k q ih hs
    rw [Registry.sessions_leave] at hs
    exact ih hs
  · intro r _ hs
    simp [Registry.drain] at hs

/-- An identity that is present after an act was present before, or the act was to register one of
its sessions. -/
theorem Step.isPresent {act : Act} (step : Step hub act hub')
    (h : hub'.isPresent userId = true) :
    hub.isPresent userId = true ∨ ∃ s, act = .enroll s ∧ s.userId = userId := by
  obtain ⟨id, hid⟩ := Option.isSome_iff_exists.mp h
  refine step.registry_preserves (P := fun r => r.current userId = some id →
    hub.isPresent userId = true ∨ ∃ s, act = .enroll s ∧ s.userId = userId) ?_ ?_ ?_ ?_ ?_ ?_ hid
  · intro s ha _ ih hc
    rcases Registry.current_of_insert hc with hu | hold
    · exact Or.inr ⟨s, ha, hu⟩
    · exact ih hold
  · intro r r' k s hr ih hc
    exact ih (hr.current_eq_some hc)
  · intro r k q ih hc
    rw [Registry.current, Registry.byUser_join] at hc
    exact ih hc
  · intro r k q ih hc
    rw [Registry.current, Registry.byUser_leave] at hc
    exact ih hc
  · intro r _ hc
    simp [Registry.drain, Registry.current] at hc
  · exact fun hc => Or.inl (Option.isSome_iff_exists.mpr ⟨id, hc⟩)

/-- A hub that is closed stays closed. -/
theorem Step.closed {act : Act} (step : Step hub act hub') (h : hub.registry.closed = true) :
    hub'.registry.closed = true := by
  refine step.registry_preserves (P := fun r => r.closed = true) ?_ ?_ ?_ ?_ ?_ h
  · intro s _ hopen hc
    rw [hopen] at hc
    exact absurd hc (by simp)
  · intro r r' k s hr hc
    rwa [hr.closed_eq]
  · intro r k q hc
    rwa [Registry.closed_join]
  · intro r k q hc
    rwa [Registry.closed_leave]
  · intro r _
    rfl

theorem Run.indexed {past : List (Moment Hub Act)} (run : Run start past hub)
    (hstart : start.registry.Indexed) : hub.registry.Indexed :=
  run.preserves (P := fun h => h.registry.Indexed) (fun step h => step.indexed h) hstart

/-- Whoever is registered at the end of a run was to be registered in its course. -/
theorem Run.mem_enrolled {past : List (Moment Hub Act)} (run : Run start past hub)
    (hstart : start.registry = {}) (h : hub.registry.sessions.get? id = some session) :
    session ∈ enrolled past := by
  induction run with
  | nil =>
    rw [hstart] at h
    exact absurd h (by simp)
  | snoc _ step ih =>
    rw [enrolled_snoc, List.mem_append]
    rcases step.registered h with hold | rfl
    · exact Or.inl (ih hold)
    · exact Or.inr (List.mem_singleton_self _)

theorem Run.coherent {past : List (Moment Hub Act)} (run : Run start past hub)
    (hstart : start.registry = {}) (distinct : DistinctIds past) : hub.registry.Coherent := by
  induction run with
  | nil =>
    rw [hstart]
    exact Registry.coherent_empty
  | snoc run step ih =>
    unfold DistinctIds at distinct
    rw [enrolled_snoc, List.pairwise_append] at distinct
    obtain ⟨hpast, -, hlast⟩ := distinct
    have hbefore := ih hpast
    refine step.coherent hbefore ?_
    -- Whoever is registered under the identifier came earlier, so it is the same session.
    rintro session rfl other hother
    have hid : other.id = session.id := hbefore.session_id hother
    rw [hlast other (Run.mem_enrolled run hstart hother) session (List.mem_singleton_self _) hid]

/-- **The four tables agree.** Whatever is done to a hub with an empty registry, in whatever order
and with whatever sessions, rooms and queues: identities and registered sessions are in bijection,
members of rooms and joined rooms are two sides of one relation, only registered sessions have
joined rooms, no empty set is kept, and nothing at all is kept after the end. -/
theorem Run.tables_agree {past : List (Moment Hub Act)} (run : Run start past hub)
    (empty : start.registry = {}) (distinct : DistinctIds past) :
    (∀ id session, hub.registry.sessions.get? id = some session →
      session.id = id ∧ hub.registry.byUser.get? session.userId = some id) ∧
    (∀ userId id, hub.registry.byUser.get? userId = some id →
      ∃ session, hub.registry.sessions.get? id = some session ∧ session.userId = userId) ∧
    (∀ id roomId, hub.registry.rooms.Holds roomId id ↔ hub.registry.joined.Holds id roomId) ∧
    (∀ id, hub.registry.joined.contains id = true → hub.registry.sessions.contains id = true) ∧
    (hub.registry.rooms.NoEmpty ∧ hub.registry.joined.NoEmpty) ∧
    (hub.registry.closed = true → hub.registry.byUser = {} ∧ hub.registry.sessions = {} ∧
      hub.registry.rooms = {} ∧ hub.registry.joined = {}) := by
  have h := Run.coherent run empty distinct
  refine ⟨?_, ?_, ?_, ?_, ⟨h.rooms_noEmpty, h.joined_noEmpty⟩, h.closed_empty⟩
  · intro id session hs
    exact ⟨h.session_id hs, h.current_of_session hs⟩
  · intro userId id hc
    exact h.session_of_current hc
  · intro id roomId
    exact h.isMember_iff
  · intro id hj
    exact h.contains_of_joined hj

/-- What happens when a second session of one identity takes the place of the first one, which is in
two rooms, is to be registered twice and is withdrawn late. -/
def takeover : List Act :=
  [.enroll (sessionOf "alice" 1), .join (sessionOf "alice" 1).id "general",
    .join (sessionOf "alice" 1).id "random", .enroll (sessionOf "alice" 1),
    .join (sessionOf "bob" 2).id "general", .enroll (sessionOf "alice" 3),
    .join (sessionOf "alice" 3).id "general", .withdraw (sessionOf "alice" 1)]

theorem Run.tables_agree_of_takeover :
    DistinctIds (play {} takeover).1 ∧
    (play {} takeover).2.registry.byUser.get? "alice" = some (sessionOf "alice" 3).id ∧
    ∃ session, (play {} takeover).2.registry.sessions.get? (sessionOf "alice" 3).id = some session ∧
      session.userId = "alice" := by
  have hdistinct : DistinctIds (play {} takeover).1 := by decide
  have hcurrent : (play {} takeover).2.registry.byUser.get? "alice" =
      some (sessionOf "alice" 3).id := by decide
  have hagree := Run.tables_agree (Run.of_play takeover : Run {} _ _) rfl hdistinct
  exact ⟨hdistinct, hcurrent, hagree.2.1 _ _ hcurrent⟩

end RoomRelay.Hub
