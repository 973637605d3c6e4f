import Mathlib.Data.List.Nodup
import RoomRelay.Proofs.Connection.Concourse

/-!
# Every connection cleans up after itself

However connections are interleaved with each other and with everything else, each takes its session
out once if it was registered, and never if it was turned away. When it is over its session is gone,
and stays so whatever is still done on its behalf: what is left of a text can make the session join
a room, but only as long as it is registered. So nothing is left behind once all are over.

## Main definitions

* `Entering`, `Leaving`, `Stands` — what is known of a session at each point of its connection
* `Concourse.Sound` — the invariant of connections side by side

## Main results

* `Link.Step.stands` — a step of a connection, seen by its own session
* `Concourse.Sound.step` — every step keeps the invariant
* `Concourse.Run.teardown` — what is known when a connection is over, and when all are
-/

namespace RoomRelay

open Routine
open Concourse (returned withdrawals)

variable {session : Session} {hub hub' : Hub} {w : Nat} {answers : List Bool} {phase : Phase}
variable {g g' : Gateway} {request : Call} {reply : request.Reply} {id : SessionId}

/-! ### Empty tables -/

theorem Table.eq_empty {κ ν : Type} [DecidableEq κ] {t : Table κ ν}
    (h : ∀ key, t.get? key = none) : t = {} := by
  obtain ⟨entries, hnodup⟩ := t
  cases entries with
  | nil => rfl
  | cons e rest => exact absurd (h e.1) (by simp [Table.get?, Table.find])

/-- Where the tables agree and no session is registered, all of them are empty. -/
theorem Registry.Coherent.eq_of_vacant {r : Registry} (h : r.Coherent)
    (hvacant : ∀ id, r.contains id = false) : r = { closed := r.closed } := by
  have habsent := fun id => h.absent (hvacant id)
  have hbyUser : r.byUser = {} := Table.eq_empty fun userId =>
    Option.eq_none_iff_forall_ne_some.mpr fun id => (habsent id).byUser userId
  have hsessions : r.sessions = {} := Table.eq_empty fun id => (habsent id).sessions
  have hjoined : r.joined = {} := Table.eq_empty fun id => (habsent id).joined
  have hrooms : r.rooms = {} := by
    refine Table.eq_empty fun roomId => ?_
    by_contra hroom
    -- A room that is kept has a member.
    obtain ⟨id, hid⟩ := h.rooms_noEmpty.contains_iff.mp (Option.isSome_iff_ne_none.mpr hroom)
    exact (habsent id).rooms roomId hid
  obtain ⟨byUser, sessions, rooms, joined, closed⟩ := r
  subst hbyUser hsessions hjoined hrooms
  rfl

/-! ### Where a session stands -/

/-- What is left of registering a session, and what is known of the session meanwhile. -/
inductive Entering (session : Session) (hub : Hub) : Routine Bool → Prop
  | start : Entering session hub (register session)
  | refused {r : Routine Bool} (gone : Hub.Gone session.id hub)
    (within : r.Within (·.subject? = none) (· = false)) : Entering session hub r
  | admitted {r : Routine Bool} (here : Hub.Here session.id hub)
    (within : r.Within (·.subject? = none) (· = true)) : Entering session hub r

/-- What is left of taking a session out, with the number of times that it has been done. -/
inductive Leaving (session : Session) (hub : Hub) : Nat → Routine Bool → Prop
  | start (here : Hub.Here session.id hub) : Leaving session hub 0 (unregister session)
  | withdrawn {r : Routine Bool} (gone : Hub.Gone session.id hub) (within : r.Impersonal) :
    Leaving session hub 1 r

/-- What is known of a session where its connection stands: what registering has returned, and how
often the session has been taken out. -/
def Stands (session : Session) (hub : Hub) (returned : List Bool) (withdrawals : Nat) :
    Phase → Prop
  | .registering rest => returned = [] ∧ withdrawals = 0 ∧ Entering session hub rest.rest
  | .serving p =>
    returned = [true] ∧ withdrawals = 0 ∧ Hub.Here session.id hub ∧ p.leftover.Impersonal
  | .leaving rest => returned = [true] ∧ Leaving session hub withdrawals rest.rest
  | .over => Hub.Gone session.id hub ∧
    (returned = [true] ∧ withdrawals = 1 ∨ returned = [false] ∧ withdrawals = 0)

theorem Stands.abides (h : Stands session hub answers w phase)
    (ha : Hub.Abides session.id hub hub') : Stands session hub' answers w phase := by
  cases phase with
  | registering rest =>
    obtain ⟨hr, hw, hentering⟩ := h
    refine ⟨hr, hw, ?_⟩
    generalize rest.rest = r at hentering
    cases hentering with
    | start => exact .start
    | refused gone within => exact .refused (ha.gone gone) within
    | admitted here within => exact .admitted (ha.here here) within
  | serving p =>
    obtain ⟨hr, hw, here, hleft⟩ := h
    exact ⟨hr, hw, ha.here here, hleft⟩
  | leaving rest =>
    obtain ⟨hr, hleaving⟩ := h
    refine ⟨hr, ?_⟩
    generalize rest.rest = r at hleaving
    cases hleaving with
    | start here => exact .start (ha.here here)
    | withdrawn gone within => exact .withdrawn (ha.gone gone) within
  | _ => exact ⟨ha.gone h.1, h.2⟩

/-! ### Registering and taking out, call by call -/

/-- The call registers and takes out no session but this one. -/
inductive Call.IsOwn (session : Session) : Call → Prop
  | enroll : IsOwn session (.enroll session)
  | withdraw : IsOwn session (.withdraw session)
  | other {request : Call} (h : request.subject? = none) : IsOwn session request

theorem Call.IsOwn.subject?_eq (h : request.IsOwn session) (hid : request.subject? = some id) :
    session.id = id := by
  cases h with
  | enroll | withdraw => exact Option.some_inj.mp hid
  | other hnone => exact absurd (hnone.symm.trans hid) (by simp)

theorem within_afterEnroll_refused_subject :
    (afterEnroll session .refused).Within (·.subject? = none) (· = false) :=
  (impersonal_note _).bind fun _ _ => within_done.mpr rfl

theorem within_afterEnroll_admitted_subject (evicted : Option Session) :
    (afterEnroll session (.admitted evicted)).Within (·.subject? = none) (· = true) := by
  refine (sparesHub_noteIf _ _).impersonal.bind fun _ _ => ?_
  refine (sparesHub_tryMark _ _).impersonal.bind fun _ _ => ?_
  exact (impersonal_note _).bind fun _ _ => within_done.mpr rfl

theorem withdrawn?_eq_none (h : request.subject? = none) : request.withdrawn? = none := by
  rw [Option.eq_none_iff_forall_not_mem]
  intro id hw
  exact absurd (h.symm.trans (Call.subject?_of_withdrawn? hw)) (by simp)

/-- A call that is answered while a session is registered takes nobody out. -/
theorem Entering.answered {next : request.Reply → Routine Bool}
    (h : Entering session g.hub (.call request next)) (hi : g.hub.registry.Indexed)
    (replies : g.Replies request reply g') :
    request.withdrawn? = none ∧ request.IsOwn session ∧
      Entering session g'.hub (next reply) := by
  generalize hr : Routine.call request next = r at h
  cases h with
  | start =>
    rw [register_eq] at hr
    obtain ⟨rfl, hnext⟩ := Routine.call.inj hr
    obtain rfl := eq_of_heq hnext
    -- This call decides: its reply says whether the session was let in.
    have answers := replies.answers (by simp [Call.act?])
    refine ⟨rfl, .enroll, ?_⟩
    cases reply with
    | refused =>
      exact .refused (answers.gone_of_refused hi) within_afterEnroll_refused_subject
    | admitted evicted =>
      exact .admitted (answers.registered_or_gone hi (Or.inr ⟨session, rfl, rfl⟩))
        (within_afterEnroll_admitted_subject evicted)
  | refused gone within =>
    subst hr
    have hnone : request.subject? = none := within.1
    have ha : Hub.Abides session.id g.hub g'.hub := replies.abides hi (by simp [hnone])
    exact ⟨withdrawn?_eq_none hnone, .other hnone, .refused (ha.gone gone) (within.2 reply)⟩
  | admitted here within =>
    subst hr
    have hnone : request.subject? = none := within.1
    have ha : Hub.Abides session.id g.hub g'.hub := replies.abides hi (by simp [hnone])
    exact ⟨withdrawn?_eq_none hnone, .other hnone, .admitted (ha.here here) (within.2 reply)⟩

/-- The first call that is answered while a session is taken out does so, and no other one. -/
theorem Leaving.answered {next : request.Reply → Routine Bool}
    (h : Leaving session g.hub w (.call request next)) (hi : g.hub.registry.Indexed)
    (replies : g.Replies request reply g') :
    request.IsOwn session ∧
      Leaving session g'.hub (w + if request.withdrawn? = some session.id then 1 else 0)
        (next reply) := by
  generalize hr : Routine.call request next = r at h
  cases h with
  | start here =>
    rw [unregister_eq] at hr
    obtain ⟨rfl, hnext⟩ := Routine.call.inj hr
    obtain rfl := eq_of_heq hnext
    have answers := replies.answers (by simp [Call.act?])
    -- Somebody else may have taken the session out already; it is gone in either case.
    have hafter : Hub.Here session.id g'.hub := answers.registered_or_gone hi (Or.inl here)
    refine ⟨.withdraw, ?_⟩
    rw [if_pos (by rfl)]
    exact .withdrawn (hafter.gone answers.withdrawn.1)
      (Errand.sparesHub_resume (.unregister session) reply).impersonal
  | withdrawn gone within =>
    subst hr
    have hnone : request.subject? = none := within.1
    have ha : Hub.Abides session.id g.hub g'.hub := replies.abides hi (by simp [hnone])
    refine ⟨.other hnone, ?_⟩
    rw [withdrawn?_eq_none hnone, if_neg (by simp)]
    exact .withdrawn (ha.gone gone) (within.2 reply)

theorem Leaving.le_one {r : Routine Bool} (h : Leaving session hub w r) : w ≤ 1 := by
  cases h with
  | start => exact Nat.zero_le 1
  | withdrawn => exact Nat.le_refl 1

/-- What registering a session leads to. -/
theorem Entering.stands {l : Link} {limits : HubConfig} {now : Nat} {progress : Progress Bool}
    (h : Entering session hub progress.rest) :
    Stands session hub progress.result?.toList 0 (l.entered limits now progress).phase := by
  cases progress with
  | paused rest => exact ⟨rfl, rfl, h⟩
  | finished result =>
    generalize hr : (Progress.finished result).rest = r at h
    cases h with
    | start =>
      rw [register_eq] at hr
      exact absurd hr (by simp [Progress.rest])
    | refused gone within =>
      subst hr
      obtain rfl : result = false := within
      exact ⟨gone, Or.inr ⟨rfl, rfl⟩⟩
    | admitted here within =>
      subst hr
      obtain rfl : result = true := within
      exact ⟨rfl, rfl, here, trivial⟩

/-- Registering begins with a call, so a connection that has just come has not got an answer. -/
theorem stands_newcomer {l : Link} {limits : HubConfig} {now : Nat} {progress : Progress Bool}
    (progress_eq : progress.rest = register session) :
    Stands session hub [] 0 (l.entered limits now progress).phase := by
  cases progress with
  | finished result =>
    rw [register_eq] at progress_eq
    exact absurd progress_eq (by simp [Progress.rest])
  | paused rest =>
    refine ⟨rfl, rfl, ?_⟩
    rw [show rest.rest = register session from progress_eq]
    exact .start

/-- What taking a session out leads to. -/
theorem Leaving.stands {l : Link} {progress : Progress Bool}
    (h : Leaving session hub w progress.rest) :
    Stands session hub [true] w (l.left progress).phase := by
  cases progress with
  | paused rest => exact ⟨rfl, h⟩
  | finished result =>
    generalize hr : (Progress.finished result).rest = r at h
    cases h with
    | start =>
      rw [unregister_eq] at hr
      exact absurd hr (by simp [Progress.rest])
    | withdrawn gone => exact ⟨gone, Or.inl ⟨rfl, rfl⟩⟩

/-- What has become of a session whose connection stands somewhere: nobody has said yet whether it
could be registered; or it could, and then it has been taken out at most once, and exactly once if
the connection is over; or it could not, and was not taken out. -/
def Accounted (answers : List Bool) (w : Nat) (phase : Phase) : Prop :=
  (answers = [] ∧ w = 0 ∧ phase ≠ .over) ∨
  (answers = [true] ∧ w ≤ 1 ∧ (phase = .over → w = 1)) ∨
  (answers = [false] ∧ w = 0)

theorem Stands.accounted (h : Stands session hub answers w phase) :
    Accounted answers w phase := by
  cases phase with
  | registering rest => exact Or.inl ⟨h.1, h.2.1, by simp⟩
  | serving p =>
    obtain ⟨hr, hw, -, -⟩ := h
    exact Or.inr (Or.inl ⟨hr, by omega, by simp⟩)
  | leaving rest => exact Or.inr (Or.inl ⟨h.1, h.2.le_one, by simp⟩)
  | _ =>
    rcases h.2 with ⟨hr, hw⟩ | ⟨hr, hw⟩
    · exact Or.inr (Or.inl ⟨hr, by omega, fun _ => hw⟩)
    · exact Or.inr (Or.inr ⟨hr, hw⟩)

/-! ### A step of a connection, seen by its own session -/

variable {limits : HubConfig} {c c' : Concourse} {event : Concourse.Event} {l l' : Link}
variable {givenUp : List Stray} {past : List (Moment Concourse Concourse.Event)}

/-- A session stands where it stood if an event is not about it. -/
theorem Stands.bystander {m : Moment Concourse Concourse.Event}
    (h : Stands session hub (returned session.id past) (withdrawals session.id past) phase)
    (ha : Hub.Abides session.id hub hub') (hreturned : m.event.returned? session.id = none)
    (hsubject : m.event.subject? ≠ some session.id) :
    Stands session hub' (returned session.id (past ++ [m])) (withdrawals session.id (past ++ [m]))
      phase := by
  rw [Concourse.returned_snoc, hreturned, Concourse.withdrawals_snoc_of_subject?_ne hsubject]
  simpa using h.abides ha

theorem Pumps.impersonal_leftover_handled {p : Pumps} {now : Nat} {progress : Progress Unit}
    (h : progress.rest.Impersonal) : (p.handled now progress).leftover.Impersonal := by
  cases progress with
  | finished => exact trivial
  | paused task => exact h

/-- What is given up, and whom a step of a connection is about. -/
theorem Link.Step.keepsToItself (step : l.Step limits g event g' l' givenUp)
    (hi : g.hub.registry.Indexed)
    (h : Stands l.session g.hub answers w l.phase) :
    (∀ request, event.request? = some request → request.IsOwn l.session) ∧
      ∀ stray ∈ givenUp, stray.rest.Impersonal := by
  have hown : ∀ {request : Call}, request.IsOwn l.session →
      ∀ request', some request = some request' → request'.IsOwn l.session := by
    rintro request hrequest request' heq
    exact Option.some_inj.mp heq ▸ hrequest
  cases step with
  | enter phase_eq replies =>
    rw [phase_eq] at h
    exact ⟨hown (Entering.answered h.2.2 hi replies).2.1, by simp⟩
  | exit phase_eq replies =>
    rw [phase_eq] at h
    exact ⟨hown (Leaving.answered h.2 hi replies).1, by simp⟩
  | handle phase_eq handling_eq =>
    rw [phase_eq] at h
    have hleft := h.2.2.2
    rw [Pumps.leftover, handling_eq] at hleft
    exact ⟨hown (.other hleft.1), by simp⟩
  | leave phase_eq =>
    rw [phase_eq] at h
    refine ⟨nofun, ?_⟩
    intro stray hstray
    rw [List.mem_singleton.mp hstray]
    exact h.2.2.2
  | client | read | tick | write => exact ⟨nofun, by simp⟩

theorem Link.Step.stands (step : l.Step limits g event g' l' givenUp)
    (hi : g.hub.registry.Indexed)
    (h : Stands l.session g.hub (returned l.session.id past) (withdrawals l.session.id past)
      l.phase) :
    Stands l.session g'.hub (returned l.session.id (past ++ [⟨c, event, c'⟩]))
      (withdrawals l.session.id (past ++ [⟨c, event, c'⟩])) l'.phase := by
  have ha : event.subject? ≠ some l.session.id → Hub.Abides l.session.id g.hub g'.hub :=
    step.abides hi
  have hquiet : Concourse.Event.quiet.subject? ≠ some l.session.id := by simp
  -- Entering and leaving make calls about the session itself; in all other steps it stands by.
  cases step with
  | enter phase_eq replies progress_eq =>
    rw [phase_eq] at h
    obtain ⟨hr, hw, hentering⟩ := h
    obtain ⟨hnone, -, hnext⟩ := Entering.answered hentering hi replies
    rw [← progress_eq] at hnext
    rw [Concourse.returned_snoc, Concourse.withdrawals_snoc, hr, hw]
    simpa [Concourse.Event.returned?, Concourse.Event.request?, hnone] using hnext.stands
  | @exit g' rest reply progress phase_eq replies progress_eq =>
    rw [phase_eq] at h
    obtain ⟨hr, hleaving⟩ := h
    obtain ⟨-, hnext⟩ := Leaving.answered hleaving hi replies
    rw [← progress_eq] at hnext
    have hw : withdrawals l.session.id
        (past ++ [⟨c, .unregister l.session rest.request progress.result?, c'⟩]) =
          withdrawals l.session.id past +
            if rest.request.withdrawn? = some l.session.id then 1 else 0 :=
      Concourse.withdrawals_snoc
    rw [Concourse.returned_snoc, hw, hr]
    exact hnext.stands
  | client session_eq phase_eq =>
    rw [phase_eq]
    exact h.bystander (ha hquiet) rfl hquiet
  | @read p item inbox handling now phase_eq _ _ _ handling_eq =>
    rw [phase_eq] at h
    obtain ⟨hr, hw, here, -⟩ := h
    refine Stands.bystander ⟨hr, hw, here, ?_⟩ (ha hquiet) rfl hquiet
    rw [Pumps.leftover, handling_eq]
    -- If a text is handled from now on, what handles it is about no session.
    cases (p.inbound.receive now item).1 with
    | none => exact trivial
    | some text => exact impersonal_handleText l.session text
  | @handle g' p task reply progress now phase_eq handling_eq replies progress_eq =>
    rw [phase_eq] at h
    obtain ⟨hr, hw, here, hleft⟩ := h
    rw [Pumps.leftover, handling_eq] at hleft
    have hnone : task.request.subject? = none := hleft.1
    have hsubject :
        (Concourse.Event.handle l.session task.request).subject? ≠ some l.session.id :=
      fun hid => absurd (hnone.symm.trans hid) (by simp)
    refine Stands.bystander ⟨hr, hw, here, ?_⟩ (ha hsubject) rfl hsubject
    refine Pumps.impersonal_leftover_handled ?_
    rw [progress_eq]
    exact hleft.2 reply
  | @tick p now phase_eq =>
    rw [phase_eq] at h
    exact Stands.bystander h (ha hquiet) rfl hquiet
  | @write p sink written w now phase_eq =>
    rw [phase_eq] at h
    exact Stands.bystander h (ha hquiet) rfl hquiet
  | leave phase_eq _ progress_eq =>
    rw [phase_eq] at h
    obtain ⟨hr, hw, here, -⟩ := h
    refine Stands.bystander ?_ (ha hquiet) rfl hquiet
    rw [hr, hw]
    refine Leaving.stands ?_
    rw [progress_eq]
    exact .start here

/-! ### All connections at once -/

/-- What holds of one element and of all others around it holds of all. -/
theorem forall_mem_middle {β : Type} {P : β → Prop} {before after : List β} {x : β} :
    (∀ y ∈ before ++ x :: after, P y) ↔ P x ∧ ∀ y ∈ before ++ after, P y := by
  rw [← List.forall_mem_cons]
  exact forall_congr' fun y => imp_congr_left List.perm_middle.mem_iff

theorem Errand.enrollee?_of_opening {errand : Errand} (h : errand.opening = .enroll session) :
    errand.enrollee? = some session := by
  cases errand with
  | register other =>
    obtain rfl := Call.enroll.inj h
    rfl
  | _ => simp [opening] at h

namespace Concourse

/-- Sessions are registered by connections only. -/
def DriversOnly (c : Concourse) : Prop := ∀ task ∈ c.tasks, task.errand.enrollee? = none

theorem Step.driversOnly (h : Step limits c event c') (hdrivers : c'.DriversOnly) :
    c.DriversOnly := by
  intro task htask
  obtain ⟨task', htask', herrand⟩ := h.mem_errands htask
  exact herrand ▸ hdrivers task' htask'

/-- What is known of connections side by side: they have sessions of their own, which nobody else
registers or takes out, each session stands where its connection stands, and who is registered has a
connection or was to be registered by somebody else. -/
structure Sound (past : List (Moment Concourse Event)) (c : Concourse) : Prop where
  indexed : c.gateway.hub.registry.Indexed
  coherent : c.DriversOnly → c.gateway.hub.registry.Coherent
  apart : (c.sessions.map (·.id)).Nodup
  foreign : ∀ task ∈ c.tasks, ∀ session ∈ c.sessions, task.errand.subject? ≠ some session.id
  strays : ∀ stray ∈ c.strays, stray.rest.Impersonal
  opens : ∀ task ∈ c.tasks, task.Opens
  links : ∀ l ∈ c.links, Stands l.session c.gateway.hub (returned l.session.id past)
    (withdrawals l.session.id past) l.phase
  unheard : ∀ id, c.Fresh id → returned id past = [] ∧ withdrawals id past = 0
  known : ∀ {id session}, c.gateway.hub.registry.sessions.get? id = some session →
    session ∈ c.sessions ∨ ∃ task ∈ c.tasks, task.errand.enrollee? = some session

namespace Sound

variable (h : Sound past c)

include h

/-- Only its connection and errands that open with that register a session or take it out. -/
theorem author (step : Step limits c event c') {request : Call}
    (hrequest : event.request? = some request) (hsubject : request.subject? ≠ none) :
    (∃ session ∈ c.sessions, request.IsOwn session) ∨
      ∃ task ∈ c.tasks, request = task.errand.opening := by
  cases step with
  | @link g g' before after l l' strays givenUp tasks event step =>
    have hstands := h.links l (List.mem_append_right _ List.mem_cons_self)
    obtain ⟨hown, -⟩ := step.keepsToItself h.indexed hstands
    exact Or.inl ⟨l.session, by simp [sessions], hown request hrequest⟩
  | @stray g g' links before after tasks session request next reply =>
    obtain rfl := Option.some_inj.mp hrequest
    have hstray := h.strays _ (List.mem_append_right _ List.mem_cons_self)
    exact absurd hstray.1 hsubject
  | @call g g' links strays before after errand request next reply =>
    obtain rfl := Option.some_inj.mp hrequest
    have hopens := h.opens _ (List.mem_append_right _ List.mem_cons_self)
    have hact : request.act? ≠ none := fun hnone => hsubject (Call.subject?_eq_none hnone)
    exact Or.inr ⟨_, List.mem_append_right _ List.mem_cons_self, hopens.opening_eq hact⟩
  | _ => exact absurd hrequest (by simp [Event.request?])

theorem named_step (step : Step limits c event c') :
    (c'.sessions.map (·.id)).Nodup ∧
      ∀ task ∈ c'.tasks, ∀ session ∈ c'.sessions, task.errand.subject? ≠ some session.id := by
  cases step with
  | @connect _ _ l progress g now made fresh =>
    constructor
    · rw [sessions, List.map_append, List.map_append, List.nodup_append]
      refine ⟨h.apart, by simp, ?_⟩
      intro a ha b hb
      obtain ⟨session, hsession, rfl⟩ := List.mem_map.mp ha
      obtain rfl : b = l.session.id := by simpa using hb
      exact fresh.1 session hsession
    · intro task htask session hsession
      rw [sessions, List.map_append, List.mem_append] at hsession
      rcases hsession with hold | hnew
      · exact h.foreign task htask session hold
      · obtain rfl : session = l.session := by simpa using hnew
        exact fresh.2 task htask
  | @link g g' before after l l' strays givenUp tasks event step =>
    have hsame : sessions ⟨g', before ++ l' :: after, strays ++ givenUp, tasks⟩ =
        sessions ⟨g, before ++ l :: after, strays, tasks⟩ := by
      simp [sessions, step.session_eq]
    rw [hsame]
    exact ⟨h.apart, h.foreign⟩
  | begin allowed =>
    refine ⟨h.apart, ?_⟩
    intro task htask session hsession
    rcases List.mem_append.mp htask with hold | hnew
    · exact h.foreign task hold session hsession
    · obtain rfl := List.mem_singleton.mp hnew
      exact allowed session hsession
  | @call g g' links strays before after errand request next reply =>
    -- What was asked stays what it was.
    obtain ⟨hcalling, hothers⟩ := forall_mem_middle.mp h.foreign
    exact ⟨h.apart, forall_mem_middle.mpr ⟨hcalling, hothers⟩⟩
  | stray | strayText | queue | elsewhere => exact ⟨h.apart, h.foreign⟩

theorem rests_step (step : Step limits c event c') :
    (∀ stray ∈ c'.strays, stray.rest.Impersonal) ∧ ∀ task ∈ c'.tasks, task.Opens := by
  cases step with
  | @link g g' before after l l' strays givenUp tasks event step =>
    refine ⟨?_, h.opens⟩
    have hstands := h.links l (List.mem_append_right _ List.mem_cons_self)
    obtain ⟨-, hgivenUp⟩ := step.keepsToItself h.indexed hstands
    intro stray hstray
    exact (List.mem_append.mp hstray).elim (h.strays stray) (hgivenUp stray)
  | @stray g g' links before after tasks session request next reply =>
    obtain ⟨hcalling, hothers⟩ := forall_mem_middle.mp h.strays
    have hgoesOn : (next reply).Impersonal := hcalling.2 reply
    exact ⟨forall_mem_middle.mpr ⟨hgoesOn, hothers⟩, h.opens⟩
  | @strayText g links before after tasks session text =>
    obtain ⟨-, hothers⟩ := forall_mem_middle.mp h.strays
    have hreads : (handleText session text).Impersonal := impersonal_handleText session text
    exact ⟨forall_mem_middle.mpr ⟨hreads, hothers⟩, h.opens⟩
  | begin =>
    refine ⟨h.strays, ?_⟩
    intro task htask
    rcases List.mem_append.mp htask with hold | hnew
    · exact h.opens task hold
    · obtain rfl := List.mem_singleton.mp hnew
      exact Or.inl rfl
  | call =>
    obtain ⟨hcalling, hothers⟩ := forall_mem_middle.mp h.opens
    exact ⟨h.strays, forall_mem_middle.mpr ⟨hcalling.answered, hothers⟩⟩
  | connect | queue | elsewhere => exact ⟨h.strays, h.opens⟩

theorem unheard_step (step : Step limits c event c') (hfresh : c'.Fresh id) :
    returned id (past ++ [⟨c, event, c'⟩]) = [] ∧
      withdrawals id (past ++ [⟨c, event, c'⟩]) = 0 := by
  have hbefore := step.fresh hfresh
  obtain ⟨hr, hw⟩ := h.unheard id hbefore
  have hsubject : event.subject? ≠ some id := by
    intro hid
    obtain ⟨request, hrequest, hid⟩ := Option.bind_eq_some_iff.mp hid
    -- Nobody who could have made such a call knows a fresh identifier.
    rcases h.author step hrequest (by simp [hid]) with
      ⟨session, hsession, hown⟩ | ⟨task, htask, rfl⟩
    · exact hbefore.1 session hsession (hown.subject?_eq hid)
    · exact hbefore.2 task htask hid
  rw [returned_snoc, step.returned?_eq_none hbefore.1, withdrawals_snoc_of_subject?_ne hsubject]
  exact ⟨by simp [hr], hw⟩

theorem enroller (step : Step limits c event c')
    (hrequest : event.request? = some (.enroll session)) :
    session ∈ c.sessions ∨ ∃ task ∈ c.tasks, task.errand.enrollee? = some session := by
  rcases h.author step hrequest (by simp [Call.subject?]) with
    ⟨other, hother, hown⟩ | ⟨task, htask, hopening⟩
  · cases hown with
    | enroll => exact Or.inl hother
    | other hnone => exact absurd hnone (by simp [Call.subject?])
  · exact Or.inr ⟨task, htask, Errand.enrollee?_of_opening hopening.symm⟩

theorem known_step (step : Step limits c event c')
    (hs : c'.gateway.hub.registry.sessions.get? id = some session) :
    session ∈ c'.sessions ∨ ∃ task ∈ c'.tasks, task.errand.enrollee? = some session := by
  have hbefore : session ∈ c.sessions ∨ ∃ task ∈ c.tasks, task.errand.enrollee? = some session :=
    (step.registered hs).elim h.known (h.enroller step)
  rcases hbefore with hsession | ⟨task, htask, henrollee⟩
  · rw [step.sessions_eq]
    exact Or.inl (List.mem_append_left _ hsession)
  · obtain ⟨task', htask', herrand⟩ := step.mem_errands htask
    exact Or.inr ⟨task', htask', herrand ▸ henrollee⟩

theorem coherent_step (step : Step limits c event c') (hdrivers : c'.DriversOnly) :
    c'.gateway.hub.registry.Coherent := by
  have hbefore := step.driversOnly hdrivers
  refine step.coherent (h.coherent hbefore) ?_
  intro session hrequest other hother
  -- Whoever has the same identifier is the same session.
  have hnone : ∀ s, ¬ ∃ task ∈ c.tasks, task.errand.enrollee? = some s := by
    rintro s ⟨task, htask, henrollee⟩
    exact absurd ((hbefore task htask).symm.trans henrollee) (by simp)
  have hsession : session ∈ c.sessions := (h.enroller step hrequest).resolve_right (hnone _)
  have hin : other ∈ c.sessions := (h.known hother).resolve_right (hnone _)
  have hsame := List.inj_on_of_nodup_map h.apart hin hsession (h.indexed.session_id hother)
  rw [hsame]

omit h in
/-- No two connections have one session. -/
theorem id_ne {before after : List Link} {k : Link} {strays : List Stray} {tasks : List Task}
    (h : Sound past ⟨g, before ++ l :: after, strays, tasks⟩) (hk : k ∈ before ++ after) :
    l.session.id ≠ k.session.id := by
  have hapart := h.apart
  rw [sessions, List.map_map, List.Perm.nodup_iff (List.perm_middle.map _), List.map_cons,
    List.nodup_cons] at hapart
  intro hid
  refine hapart.1 ?_
  rw [Function.comp_apply, hid]
  exact List.mem_map_of_mem hk

theorem bystander (step : Step limits c event c') {l : Link} (hl : l ∈ c.links)
    (hreturned : event.returned? l.session.id = none)
    (hsubject : event.subject? ≠ some l.session.id) :
    Stands l.session c'.gateway.hub (returned l.session.id (past ++ [⟨c, event, c'⟩]))
      (withdrawals l.session.id (past ++ [⟨c, event, c'⟩])) l.phase := by
  have hin : ∃ session ∈ c.sessions, session.id = l.session.id :=
    ⟨l.session, List.mem_map_of_mem hl, rfl⟩
  exact (h.links l hl).bystander (step.abides h.indexed hin hsubject) hreturned hsubject

theorem links_step (step : Step limits c event c') : ∀ l ∈ c'.links,
    Stands l.session c'.gateway.hub (returned l.session.id (past ++ [⟨c, event, c'⟩]))
      (withdrawals l.session.id (past ++ [⟨c, event, c'⟩])) l.phase := by
  -- A step moves one connection at most; all others stand where they stood.
  have hother := fun l (hl : l ∈ c.links) => h.bystander step hl
  intro k hk
  cases step with
  | @connect _ _ l progress g now made fresh progress_eq =>
    rcases List.mem_append.mp hk with hold | hnew
    · exact hother k hold rfl (by simp)
    · obtain rfl := List.mem_singleton.mp hnew
      obtain ⟨hr, hw⟩ := h.unheard l.session.id fresh
      rw [Link.session_entered, returned_snoc, withdrawals_snoc, hr, hw]
      exact stands_newcomer progress_eq
  | @link g g' before after l l' strays givenUp tasks event step =>
    have hstands := h.links l (List.mem_append_right _ List.mem_cons_self)
    rcases List.mem_cons.mp (List.perm_middle.mem_iff.mp hk) with rfl | hk
    · rw [step.session_eq]
      exact step.stands h.indexed hstands
    · have hne : l.session.id ≠ k.session.id := h.id_ne hk
      have hold : k ∈ before ++ l :: after :=
        List.perm_middle.mem_iff.mpr (List.mem_cons_of_mem _ hk)
      refine hother k hold (step.returned?_eq_none hne) ?_
      intro hid
      obtain ⟨request, hrequest, hid⟩ := Option.bind_eq_some_iff.mp hid
      exact hne (((step.keepsToItself h.indexed hstands).1 request hrequest).subject?_eq hid)
  | @stray g g' links before after tasks session request next reply =>
    have hstray := h.strays _ (List.mem_append_right _ List.mem_cons_self)
    refine hother k hk rfl ?_
    intro hid
    exact absurd (hstray.1.symm.trans hid) (by simp)
  | @call g g' links strays before after errand request next reply =>
    refine hother k hk rfl ?_
    intro hid
    -- An errand acts on the hub with its first call, which is about nobody who has a connection.
    have hact : request.act? ≠ none := by
      intro hnone
      exact absurd ((Call.subject?_eq_none hnone).symm.trans hid) (by simp)
    have hopens := h.opens _ (List.mem_append_right _ List.mem_cons_self)
    have hforeign := h.foreign _ (List.mem_append_right _ List.mem_cons_self) k.session
      (List.mem_map_of_mem hk)
    refine hforeign ?_
    rw [Errand.subject?, ← hopens.opening_eq hact]
    exact hid
  | strayText | begin | queue | elsewhere => exact hother k hk rfl (by simp)

/-- Every step keeps the invariant. -/
theorem step (step : Step limits c event c') : Sound (past ++ [⟨c, event, c'⟩]) c' where
  indexed := step.indexed h.indexed
  coherent := h.coherent_step step
  apart := (h.named_step step).1
  foreign := (h.named_step step).2
  strays := (h.rests_step step).1
  opens := (h.rests_step step).2
  links := h.links_step step
  unheard _ := h.unheard_step step
  known := h.known_step step

end Sound

/-- Nobody has come yet, and nothing has been asked for. -/
structure Idle (c : Concourse) : Prop where
  registry_eq : c.gateway.hub.registry = {}
  links_eq : c.links = []
  strays_eq : c.strays = []
  tasks_eq : c.tasks = []

theorem Idle.sound (h : Idle c) : Sound [] c where
  indexed := by
    rw [h.registry_eq]
    exact Registry.indexed_empty
  coherent _ := by
    rw [h.registry_eq]
    exact Registry.coherent_empty
  apart := by simp [sessions, h.links_eq]
  foreign := by simp [h.tasks_eq]
  strays := by simp [h.strays_eq]
  opens := by simp [h.tasks_eq]
  links := by simp [h.links_eq]
  unheard _ _ := ⟨rfl, rfl⟩
  known hid := by simp [h.registry_eq] at hid

theorem Run.sound {start last : Concourse} (run : Run limits start past last) (idle : Idle start) :
    Sound past last := by
  induction run with
  | nil => exact idle.sound
  | snoc _ step ih => exact ih.step step

/-! ### When a connection is over, and when all are -/

theorem Sound.gone (h : Sound past c) (hl : l ∈ c.links) (hover : l.phase = .over) :
    Hub.Gone l.session.id c.gateway.hub := by
  have hstands := h.links l hl
  rw [hover] at hstands
  exact hstands.1

theorem Sound.eq_of_over (h : Sound past c) (hdrivers : c.DriversOnly)
    (hover : ∀ l ∈ c.links, l.phase = .over) :
    c.gateway.hub.registry = { closed := c.gateway.hub.registry.closed } := by
  refine (h.coherent hdrivers).eq_of_vacant ?_
  intro id
  by_contra hcontains
  -- Whoever is registered has a connection, which is over.
  obtain ⟨session, hs⟩ := Registry.contains_iff.mp (by simpa using hcontains)
  rcases h.known hs with hsession | ⟨task, htask, henrollee⟩
  · obtain ⟨l, hl, rfl⟩ := List.mem_map.mp hsession
    have hgone := h.gone hl (hover l hl)
    rw [h.indexed.session_id hs] at hgone
    exact hcontains hgone.absent
  · exact absurd ((hdrivers task htask).symm.trans henrollee) (by simp)

/-- **Every connection cleans up after itself.** Take any run of connections side by side from an
empty registry, with whatever else happens meanwhile. A session that has been registered is taken
out at most once, and exactly once when its connection is over; one that was turned away never is.
From the moment at which a connection is over its session is closed, not registered and in no room,
also if what is left of its texts goes on. If nobody else registers sessions, nothing at all is
registered once all connections are over. -/
theorem Run.teardown {start last : Concourse} (run : Run limits start past last)
    (idle : Idle start) :
    (∀ l ∈ last.links,
      Accounted (returned l.session.id past) (withdrawals l.session.id past) l.phase) ∧
    (∀ m ∈ past, ∀ l ∈ m.after.links, l.phase = .over →
      last.gateway.hub.isClosed l.session.id = true ∧
      last.gateway.hub.registry.contains l.session.id = false ∧
      last.gateway.hub.registry.roomsOf l.session.id = [] ∧
      ∀ roomId, l.session.id ∉ last.gateway.hub.registry.memberIds roomId) ∧
    ((∀ task ∈ last.tasks, task.errand.enrollee? = none) → (∀ l ∈ last.links, l.phase = .over) →
      last.gateway.hub.registry = { closed := last.gateway.hub.registry.closed }) := by
  have hsound := run.sound idle
  refine ⟨fun l hl => (hsound.links l hl).accounted, ?_, hsound.eq_of_over⟩
  -- A connection that was over at some moment is over at the end, where the invariant speaks.
  intro m hm l hl hover
  obtain ⟨earlier, later, rfl⟩ := List.append_of_mem hm
  obtain ⟨-, -, hafter⟩ := run.at_moment
  obtain ⟨l', hl', hsession, hover'⟩ := Run.over hafter hl hover
  have hgone := hsound.gone hl' hover'
  rw [hsession] at hgone
  refine ⟨hgone.closed, hgone.absent, hsound.indexed.roomsOf_eq_nil hgone.absent, ?_⟩
  intro roomId hmember
  have hcontains := hsound.indexed.contains_of_isMember (Registry.mem_memberIds.mp hmember)
  exact absurd (hgone.absent.symm.trans hcontains) (by simp)

instance (phase : Phase) : Decidable (phase = .over) :=
  match phase with
  | .over => .isTrue rfl
  | .registering _ | .serving _ | .leaving _ => .isFalse nofun

/-- A gateway to which nobody is connected. -/
def hall : Concourse where
  gateway := Traffic.idle.gateway

/-- A session is to join a room when another one of its identity takes its place; its connection is
over before that is done. Then the second client goes, the server stops, and a third client comes
too late. -/
def lateJoin : List Move :=
  [.connect "alice", .link 0, .link 0, .link 0,
    .send 0 (.text "\x7b\"type\":\"join_room\",\"payload\":\x7b\"roomId\":\"general\"\x7d\x7d"),
    .link 0, .link 0, .connect "alice", .link 1, .link 0, .link 0, .stray 0, .link 1, .link 1,
    .link 1, .send 1 .close, .link 1, .link 1, .link 1, .link 1, .link 1, .link 1,
    .begin .shutdown, .call 0, .connect "bob", .link 2, .link 2]

theorem Run.teardown_of_lateJoin :
    (hall.play {} lateJoin).2.links.length = 3 ∧
    (∀ l ∈ (hall.play {} lateJoin).2.links, l.phase = .over) ∧
    (hall.play {} lateJoin).2.gateway.hub.registry = { closed := true } := by
  have hover : ∀ l ∈ (hall.play {} lateJoin).2.links, l.phase = .over := by decide +kernel
  have hdrivers : ∀ task ∈ (hall.play {} lateJoin).2.tasks, task.errand.enrollee? = none := by
    decide +kernel
  have hclosed : (hall.play {} lateJoin).2.gateway.hub.registry.closed = true := by decide +kernel
  have hrun : Run {} hall _ _ := Run.of_play lateJoin
  obtain ⟨-, -, hempty⟩ := Run.teardown hrun ⟨rfl, rfl, rfl, rfl⟩
  refine ⟨by decide +kernel, hover, ?_⟩
  rw [hempty hdrivers hover, hclosed]

end Concourse

end RoomRelay
