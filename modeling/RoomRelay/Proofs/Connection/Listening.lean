import RoomRelay.Proofs.Connection.Conduct
import RoomRelay.Proofs.Service.Petitions

/-!
# What is heard of a client

A connection listens to its client until the client has done, until reading fails, or until the
client has been silent for too long. Every item that comes until then ends the silence, whatever it
is; texts are carried out besides, one after the other, and nothing that comes later has any effect.
A text that is no command is noted and has no effect either.

Here no call takes any time, though calls may fail. What others do meanwhile is left open: at every
moment the listener finds the scene as it happens to be.

## Main definitions

* `EndsAt`, `GoesOn` — what is heard of the items that come, and when listening ends
* `Scene.hear` — what becomes of one text
* `Visit`, `Listener.listen` — a listener that wakes when something comes and when its time has come

## Main results

* `Routine.ends_proceed` — where no call takes any time, no routine does
* `EndsAt.unique` — there is one end
* `Listener.run_read` — a connection that serves its client reads as a listener does
* `Listener.listen_exactly` — the texts before the end are carried out, and reading ends there
-/

namespace RoomRelay

open Routine

variable {α : Type} {s s' : Scene} {request : Call}

/-! ### Calls that take no time -/

theorem Gateway.elapsed_step (g : Gateway) (request : Call) :
    (g.step request).2.elapsed = g.elapsed := by
  cases request with
  | storage call =>
    cases call with
    | touch roomId =>
      change (g.touch roomId).elapsed = _
      unfold Gateway.touch
      split <;> rfl
    | _ => rfl
  | _ => rfl

namespace Scene

/-- No call takes any time. It may fail all the same. -/
def Prompt (s : Scene) : Prop := ∀ request, (s.obstacle request).delay = 0

/-- The time is the same as before, and calls are hindered as before. -/
structure Keeps (s s' : Scene) : Prop where
  obstacles_eq : s'.obstacles = s.obstacles
  now_eq : s'.now = s.now

theorem Keeps.refl (s : Scene) : s.Keeps s := ⟨rfl, rfl⟩

theorem Keeps.trans {s'' : Scene} (h : s.Keeps s') (h' : s'.Keeps s'') : s.Keeps s'' :=
  ⟨h'.obstacles_eq.trans h.obstacles_eq, h'.now_eq.trans h.now_eq⟩

theorem Keeps.prompt (h : s.Keeps s') (prompt : s.Prompt) : s'.Prompt := by
  intro request
  have hsame : s'.obstacle request = s.obstacle request := by
    rw [obstacle, h.obstacles_eq]
    rfl
  rw [hsame]
  exact prompt request

theorem prompt_of_unhindered (h : s.obstacles = {}) : s.Prompt := by
  intro request
  rw [obstacle, h]
  cases request.kind? <;> rfl

theorem keeps_remember : s.Keeps (s.remember request) := by
  unfold remember
  split
  · split <;> exact ⟨rfl, rfl⟩
  · exact .refl s

theorem keeps_answer {reason : Option String} : s.Keeps (s.answer request reason).2 := by
  unfold answer
  split
  · exact .refl s
  · exact ⟨rfl, Gateway.elapsed_step _ _⟩

theorem keeps_welcome {reason : Option String} : s.Keeps (s.welcome request reason).2 := by
  unfold welcome
  split <;> exact ⟨rfl, rfl⟩

end Scene

namespace Routine

variable {next : request.Reply → Routine α}

/-- A routine has come to its end, and no time has passed. -/
structure Ends (s : Scene) (outcome : Progress α × Scene) : Prop where
  finished : ∃ result, outcome.1 = .finished result
  keeps : s.Keeps outcome.2

theorem Ends.after {outcome : Progress α × Scene} (h : s.Keeps s') (ends : Ends s' outcome) :
    Ends s outcome :=
  ⟨ends.finished, h.trans ends.keeps⟩

/-- A call is answered as soon as it begins. -/
theorem ends_begin {finish : Option String → StateM Scene (Progress α)} (prompt : s.Prompt)
    (hfinish : ∀ reason s', s'.Prompt → Ends s' ((finish reason).run s')) :
    Ends s ((begin request next finish).run s) := by
  have hkeeps : s.Keeps (s.remember request) := Scene.keeps_remember
  have hprompt := hkeeps.prompt prompt
  have heq : (begin request next finish).run s =
      (finish ((s.remember request).obstacle request).reason).run (s.remember request) := by
    simp [begin, hprompt request]
  rw [heq]
  exact .after hkeeps (hfinish _ _ hprompt)

theorem ends_follow (r : Routine α) (prompt : s.Prompt) : Ends s (r.follow.run s) := by
  induction r generalizing s with
  | done result => exact ⟨⟨result, rfl⟩, .refl s⟩
  | call request next ih =>
    refine ends_begin prompt fun reason s' hprompt => ?_
    have hkeeps : s'.Keeps (s'.answer request reason).2 := Scene.keeps_answer
    exact .after hkeeps (ih _ (hkeeps.prompt hprompt))

theorem ends_conclude {reason : Option String} {goOn : request.Reply → StateM Scene (Progress α)}
    (prompt : s.Prompt) (hgo : ∀ reply s', s'.Prompt → Ends s' ((goOn reply).run s')) :
    Ends s ((conclude request reason next goOn).run s) := by
  have hanswer : s.Keeps (s.answer request reason).2 := Scene.keeps_answer
  generalize houtcome : s.answer request reason = answered at hanswer
  obtain ⟨reply, s₁⟩ := answered
  have hwelcome : s₁.Keeps (s₁.welcome request reason).2 := Scene.keeps_welcome
  generalize hnewcomer : s₁.welcome request reason = welcomed at hwelcome
  obtain ⟨newcomer, s₂⟩ := welcomed
  have hkeeps := hanswer.trans hwelcome
  have hprompt := hkeeps.prompt prompt
  cases newcomer with
  | none =>
    have heq : (conclude request reason next goOn).run s = (goOn reply).run s₂ := by
      simp [conclude, houtcome, hnewcomer]
    rw [heq]
    exact .after hkeeps (hgo reply s₂ hprompt)
  | some session =>
    -- Whoever is registered in between takes no time either.
    obtain ⟨⟨result, hfinished⟩, hregistered⟩ := ends_follow (register session) hprompt
    generalize hfollow : (register session).follow.run s₂ = followed at hfinished hregistered
    obtain ⟨progress, s₃⟩ := followed
    obtain rfl : progress = .finished result := hfinished
    have heq : (conclude request reason next goOn).run s = (goOn reply).run s₃ := by
      simp [conclude, houtcome, hnewcomer, hfollow]
      rfl
    rw [heq]
    exact .after (hkeeps.trans hregistered) (hgo reply s₃ (hregistered.prompt hprompt))

/-- Where no call takes any time, a routine comes to its end at once. -/
theorem ends_proceed (r : Routine α) (prompt : s.Prompt) : Ends s (r.proceed.run s) := by
  induction r generalizing s with
  | done result => exact ⟨⟨result, rfl⟩, .refl s⟩
  | call request next ih =>
    exact ends_begin prompt fun reason s' hprompt =>
      ends_conclude hprompt fun reply s'' => ih reply

end Routine

/-! ### What becomes of one text -/

variable {session : Session} {text : String} {item : Incoming} {items : List Incoming}

namespace Scene

/-- What becomes of a text: unless the session has been closed, the command is carried out, or it is
noted that there is none. -/
def hear (session : Session) (s : Scene) (text : String) : Scene :=
  if s.gateway.hub.isClosed session.id then s
  else
    match Command.parse text with
    | .ok command => ((handleCommand session command).proceed.run s).2
    | .error _ =>
      { s with gateway := { s.gateway with notes := .frameDiscarded :: s.gateway.notes } }

/-- What becomes of any item: only texts have an effect. -/
def take (session : Session) (s : Scene) (item : Incoming) : Scene :=
  match item.text? with
  | some text => s.hear session text
  | none => s

/-- A text is acted upon at once. -/
theorem proceed_handleText (prompt : s.Prompt) :
    (handleText session text).proceed.run s = (.finished (), s.hear session text) := by
  have hask : (handleText session text).proceed.run s =
      (if s.gateway.hub.isClosed session.id then Routine.done ()
        else match Command.parse text with
          | .ok command => handleCommand session command
          | .error _ => note .frameDiscarded).proceed.run s := rfl
  rw [hask]
  unfold hear
  by_cases hclosed : s.gateway.hub.isClosed session.id = true
  · simp only [if_pos hclosed]
    rfl
  · simp only [if_neg hclosed]
    cases Command.parse text with
    | ok command =>
      obtain ⟨⟨result, hfinished⟩, -⟩ := ends_proceed (handleCommand session command) prompt
      exact Prod.ext hfinished rfl
    | error _ => rfl

theorem keeps_hear (prompt : s.Prompt) : s.Keeps (s.hear session text) := by
  have hends := ends_proceed (handleText session text) prompt
  rw [proceed_handleText prompt] at hends
  exact hends.keeps

theorem keeps_take (prompt : s.Prompt) : s.Keeps (s.take session item) := by
  unfold take
  split
  · exact keeps_hear prompt
  · exact .refl s

end Scene

/-! ### The end -/

/-- An item that comes from a client at a moment. -/
structure Arrival where
  /-- The moment, in milliseconds. -/
  moment : Nat
  /-- The item. -/
  item : Incoming
  deriving DecidableEq

/-- Some items that come at the same moment. -/
def arrivals (moment : Nat) (items : List Incoming) : List Arrival := items.map (⟨moment, ·⟩)

/-- From a moment on, some items are heard of those that come, and listening ends at another one:
with the first item that is a last one, or, if that is earlier, as soon as nothing has come for so
long. -/
inductive EndsAt (idle : Nat) : Nat → List Arrival → List Arrival → Nat → Prop
  /-- A last item comes, and it comes in time. -/
  | last {since : Nat} {a : Arrival} {script : List Arrival} (last : a.item.isLast = true)
    (timely : a.moment ≤ since + idle) : EndsAt idle since (a :: script) [] a.moment
  /-- Nothing comes in time. -/
  | silence {since : Nat} {script : List Arrival} (late : ∀ a ∈ script, since + idle < a.moment) :
    EndsAt idle since script [] (since + idle)
  /-- Another item comes in time, and the silence begins again. -/
  | next {since stop : Nat} {a : Arrival} {script heard : List Arrival}
    (more : a.item.isLast = false) (timely : a.moment ≤ since + idle)
    (rest : EndsAt idle a.moment script heard stop) :
    EndsAt idle since (a :: script) (a :: heard) stop

/-- Listening goes on after some items: whatever is heard from another moment on is heard after
them, up to the same end. -/
def GoesOn (idle since : Nat) (items : List Arrival) (since' : Nat) : Prop :=
  ∀ later heard stop, EndsAt idle since' later heard stop →
    EndsAt idle since (items ++ later) (items ++ heard) stop

/-- What is heard at a moment. -/
def heardAt (moment : Nat) (heard : List Arrival) : List Incoming :=
  (heard.filter (·.moment = moment)).map (·.item)

section End

variable {idle since stop stop' moment : Nat} {script heard heard' : List Arrival}

/-- There is one end, and what is heard until then is one thing. -/
theorem EndsAt.unique (h : EndsAt idle since script heard stop)
    (h' : EndsAt idle since script heard' stop') : heard' = heard ∧ stop' = stop := by
  induction h generalizing heard' stop' with
  | last last timely =>
    cases h' with
    | last => exact ⟨rfl, rfl⟩
    | silence late => exact absurd timely (Nat.not_le_of_lt (late _ List.mem_cons_self))
    | next more => exact absurd (last.symm.trans more) (by simp)
  | silence late =>
    cases h' with
    | last _ timely => exact absurd timely (Nat.not_le_of_lt (late _ List.mem_cons_self))
    | silence => exact ⟨rfl, rfl⟩
    | next _ timely => exact absurd timely (Nat.not_le_of_lt (late _ List.mem_cons_self))
  | next more timely _ ih =>
    cases h' with
    | last last => exact absurd (last.symm.trans more) (by simp)
    | silence late => exact absurd timely (Nat.not_le_of_lt (late _ List.mem_cons_self))
    | next _ _ rest =>
      obtain ⟨rfl, rfl⟩ := ih rest
      exact ⟨rfl, rfl⟩

/-- What is heard has come. -/
theorem EndsAt.subset (h : EndsAt idle since script heard stop) : heard ⊆ script := by
  induction h with
  | last => exact List.nil_subset _
  | silence => exact List.nil_subset _
  | next _ _ _ ih => exact List.cons_subset_cons _ ih

/-- Listening does not end before the silence has lasted long enough or something has come. -/
theorem EndsAt.lt_stop (h : EndsAt idle since script heard stop) (waits : moment < since + idle)
    (later : ∀ a ∈ script, moment < a.moment) : moment < stop := by
  induction h with
  | last => exact later _ List.mem_cons_self
  | silence => exact waits
  | @next since stop a _ _ _ _ _ ih =>
    have hcomes : moment < a.moment := later _ List.mem_cons_self
    exact ih (by omega) fun b hb => later b (List.mem_cons_of_mem _ hb)

theorem heardAt_append :
    heardAt moment (heard ++ heard') = heardAt moment heard ++ heardAt moment heard' := by
  simp [heardAt]

theorem heardAt_arrivals : heardAt moment (arrivals moment items) = items := by
  simp [heardAt, arrivals, List.filter_map, Function.comp_def]

theorem heardAt_of_ne (h : ∀ a ∈ heard, a.moment ≠ moment) : heardAt moment heard = [] := by
  simpa [heardAt] using h

theorem moment_of_mem_arrivals {a : Arrival} (h : a ∈ arrivals moment items) :
    a.moment = moment := by
  obtain ⟨item, -, rfl⟩ := List.mem_map.mp h
  rfl

end End

/-! ### A listener among others -/

/-- A moment at which a listener is awake. Items that come at the same moment are read at the same
visit; at some visits there are none. -/
structure Visit where
  /-- The scene, as others have left it. -/
  scene : Scene
  /-- What has come from the client just now. -/
  came : List Incoming := []

namespace Visit

/-- When it is. -/
def moment (v : Visit) : Nat := v.scene.now

/-- What comes. -/
def script (v : Visit) : List Arrival := arrivals v.moment v.came

/-- The scene once everything has been carried out that is heard at this moment. -/
def after (session : Session) (heard : List Arrival) (v : Visit) : Scene :=
  (heardAt v.moment heard).foldl (Scene.take session) v.scene

/-- The same scene at another moment, when nothing comes. -/
def at_ (v : Visit) (moment : Nat) : Visit where
  scene := { v.scene with gateway := { v.scene.gateway with elapsed := moment } }

end Visit

/-- A listener, with what has come and has not been read. -/
structure Listener where
  /-- What has not been read. -/
  inbox : List Incoming := []
  /-- Where reading stands. -/
  pumps : Pumps

namespace Listener

/-- The listener wakes and does what can be done at once. -/
def wake (session : Session) (r : Listener) (v : Visit) : Listener × Scene :=
  match (Link.readOn session (r.inbox ++ v.came) r.pumps).run v.scene with
  | ((inbox, pumps), scene) => (⟨inbox, pumps⟩, scene)

/-- A connection that serves its client reads as a listener does. -/
theorem run_read {l : Link} {limits : HubConfig} {pumps : Pumps} {s : Scene}
    (phase_eq : l.phase = .serving pumps) :
    (l.read limits).run s =
      let (r, s') := wake l.session ⟨l.inbox, pumps⟩ ⟨s, []⟩
      ({ l with inbox := r.inbox, phase := .serving r.pumps }, s') := by
  simp [Link.read, phase_eq, wake]
  rfl

/-- The listener has woken by itself if its time came before a moment. -/
def expire (session : Session) (r : Listener) (v : Visit) : Listener :=
  if Link.readTimer r.pumps < v.moment then
    (r.wake session (v.at_ (Link.readTimer r.pumps))).1
  else r

/-- The listener is awake at some moments and whenever its time has come. The answer has the scenes
as the listener leaves them at these moments. -/
def listen (session : Session) : Listener → List Visit → List Scene × Listener
  | r, [] => ([], r)
  | r, v :: visits =>
    let (r, scene) := (r.expire session v).wake session v
    let (scenes, r) := r.listen session visits
    (scene :: scenes, r)

/-- A listener that has begun to wait at a moment. -/
structure Waits (r : Listener) (idle since : Nat) : Prop where
  inbox_eq : r.inbox = []
  handling_eq : r.pumps.handling = none
  inbound_eq : r.pumps.inbound = .start idle since

/-- A listener that reads no more. -/
structure Done (r : Listener) : Prop where
  handling_eq : r.pumps.handling = none
  ended : r.pumps.inbound.ended = true

end Listener

section Reading

variable {p : Pumps} {idle since : Nat}

/-- Reading that has ended does not begin again. -/
theorem InboundPump.ended_tick {inbound : InboundPump} {now : Nat} (ended : inbound.ended = true) :
    (inbound.tick now).ended = true := by
  unfold tick
  split
  · rfl
  · exact ended

/-- Nothing is read after a last item. -/
theorem run_readAll_of_last (running : p.inbound.ended = false) (last : item.isLast = true) :
    (Link.readAll session (item :: items) p).run s =
      ((items, { p with inbound := p.inbound.finish }), s) := by
  have htext : item.text? = none := by
    cases item <;> first | rfl | exact absurd last (by simp [Incoming.isLast])
  have hheard : p.heard s.now item = { p with inbound := p.inbound.finish } := by
    simp [Pumps.heard, InboundPump.receive, last]
  rw [Link.run_readAll_of_wordless running htext, hheard, Link.run_readAll_of_ended rfl]

/-- Any other item ends the silence, and a text is carried out. -/
theorem run_readAll_of_more (running : p.inbound.ended = false) (more : item.isLast = false)
    (prompt : s.Prompt) :
    (Link.readAll session (item :: items) p).run s =
      (Link.readAll session items { p with inbound := p.inbound.restart s.now }).run
        (s.take session item) := by
  have hheard : p.heard s.now item = { p with inbound := p.inbound.restart s.now } := by
    simp [Pumps.heard, InboundPump.receive, more]
  unfold Scene.take
  cases htext : item.text? with
  | none => rw [Link.run_readAll_of_wordless running htext, hheard]
  | some text =>
    rw [Link.run_readAll_of_finished running htext (Scene.proceed_handleText prompt), hheard]

/-- A listener that waits reads what comes in time: everything, or what comes before a last item. -/
theorem run_readAll_of_timely (inbound_eq : p.inbound = .start idle since) (prompt : s.Prompt)
    (timely : s.now ≤ since + idle) :
    ∃ heard rest inbound, (Link.readAll session items p).run s =
        ((rest, { p with inbound }), heard.foldl (Scene.take session) s) ∧
      s.Keeps (heard.foldl (Scene.take session) s) ∧
      ((inbound.ended = true ∧ ∀ later, EndsAt idle since (arrivals s.now items ++ later)
          (arrivals s.now heard) s.now) ∨
        (heard = items ∧ rest = [] ∧ ∃ since', inbound = .start idle since' ∧
          s.now ≤ since' + idle ∧ GoesOn idle since (arrivals s.now items) since')) := by
  -- Each item that is read begins the silence again, at the same moment.
  induction items generalizing p s since with
  | nil =>
    exact ⟨[], [], p.inbound, rfl, .refl s,
      Or.inr ⟨rfl, rfl, since, inbound_eq, timely, fun _ _ _ h => h⟩⟩
  | cons item items ih =>
    have hrunning : p.inbound.ended = false := by rw [inbound_eq]; rfl
    cases hlast : item.isLast with
    | true =>
      refine ⟨[], items, p.inbound.finish, run_readAll_of_last hrunning hlast, .refl s,
        Or.inl ⟨rfl, fun later => ?_⟩⟩
      exact .last hlast timely
    | false =>
      have hkeeps : s.Keeps (s.take session item) := Scene.keeps_take prompt
      have hrestart : p.inbound.restart s.now = .start idle s.now := by rw [inbound_eq]; rfl
      obtain ⟨heard, rest, inbound, hrun, hkept, hends⟩ := @ih (s.take session item)
        { p with inbound := p.inbound.restart s.now } s.now hrestart (hkeeps.prompt prompt)
        (by rw [hkeeps.now_eq]; omega)
      rw [hkeeps.now_eq] at hends
      refine ⟨item :: heard, rest, inbound, ?_, hkeeps.trans hkept, ?_⟩
      · rw [run_readAll_of_more hrunning hlast prompt, hrun]
        rfl
      · rcases hends with ⟨hended, hends⟩ | ⟨rfl, hrest, since', hinbound, hwaits, hends⟩
        · exact Or.inl ⟨hended, fun later => .next hlast timely (hends later)⟩
        · exact Or.inr ⟨rfl, hrest, since', hinbound, hwaits,
            fun later heardLater stop h => .next hlast timely (hends later heardLater stop h)⟩

end Reading

namespace Listener

variable {r : Listener} {v : Visit} {visits : List Visit} {idle since : Nat}

/-- A listener that is not acting upon a text reads, and then looks at the clock. -/
theorem wake_of_run {rest : List Incoming} {p : Pumps} {s' : Scene}
    (handling_eq : r.pumps.handling = none) (handling_eq' : p.handling = none)
    (h : (Link.readAll session (r.inbox ++ v.came) r.pumps).run v.scene = ((rest, p), s')) :
    r.wake session v = (⟨rest, { p with inbound := p.inbound.tick s'.now }⟩, s') := by
  have hhandle : (Link.handleOn r.pumps).run v.scene = (pure (r.pumps, v.scene) : Id _) := by
    simp [Link.handleOn, handling_eq]
  replace h : (Link.readAll session (r.inbox ++ v.came) r.pumps).run v.scene =
      (pure ((rest, p), s') : Id _) := h
  have hread : (Link.readOn session (r.inbox ++ v.came) r.pumps).run v.scene =
      ((rest, { p with inbound := p.inbound.tick s'.now }), s') := by
    simp [Link.readOn, hhandle, handling_eq, h, handling_eq']
    rfl
  rw [wake, hread]

theorem Done.wake (done : r.Done) (session : Session) (v : Visit) :
    (r.wake session v).1.Done ∧ (r.wake session v).2 = v.scene := by
  rw [wake_of_run done.handling_eq done.handling_eq (Link.run_readAll_of_ended done.ended)]
  exact ⟨⟨done.handling_eq, InboundPump.ended_tick done.ended⟩, rfl⟩

theorem Done.expire (done : r.Done) (session : Session) (v : Visit) :
    (r.expire session v).Done := by
  unfold Listener.expire
  split
  · exact (done.wake session _).1
  · exact done

/-- A listener that reads no more leaves everything as it is, and never reads again. -/
theorem Done.listen (done : r.Done) (session : Session) (visits : List Visit) :
    (r.listen session visits).1 = visits.map (·.scene) ∧ (r.listen session visits).2.Done := by
  induction visits generalizing r with
  | nil => exact ⟨rfl, done⟩
  | cons v visits ih =>
    obtain ⟨hdone, hscene⟩ := (done.expire session v).wake session v
    obtain ⟨hscenes, hlast⟩ := ih hdone
    refine ⟨?_, hlast⟩
    simp only [Listener.listen, List.map_cons, hscene, hscenes]

theorem Waits.readTimer_eq (waits : r.Waits idle since) :
    Link.readTimer r.pumps = since + idle := by
  rw [Link.readTimer, waits.handling_eq, waits.inbound_eq]
  rfl

/-- A listener that waits ends by itself as soon as its time has come. -/
theorem Waits.expire_of_late (waits : r.Waits idle since) (session : Session)
    (late : since + idle < v.moment) : (r.expire session v).Done := by
  have hread : (Link.readAll session (r.inbox ++ (v.at_ (since + idle)).came) r.pumps).run
      (v.at_ (since + idle)).scene = (([], r.pumps), (v.at_ (since + idle)).scene) := by
    rw [waits.inbox_eq]
    rfl
  unfold expire
  rw [waits.readTimer_eq, if_pos late, wake_of_run waits.handling_eq waits.handling_eq hread]
  refine ⟨waits.handling_eq, ?_⟩
  rw [waits.inbound_eq]
  exact congrArg InboundPump.ended (if_pos (Nat.le_refl (since + idle)))

/-- Its time has not come before. -/
theorem Waits.expire_of_timely (waits : r.Waits idle since) (session : Session)
    (timely : v.moment ≤ since + idle) : r.expire session v = r := by
  unfold expire
  rw [waits.readTimer_eq, if_neg (Nat.not_lt_of_le timely)]

/-- A listener that wakes in time either ends at this moment or begins to wait again. -/
theorem Waits.wake (waits : r.Waits idle since) (session : Session) (prompt : v.scene.Prompt)
    (timely : v.moment ≤ since + idle) :
    ∃ heard, (r.wake session v).2 = heard.foldl (Scene.take session) v.scene ∧
      (((r.wake session v).1.Done ∧ ∀ later, (∀ a ∈ later, v.moment < a.moment) →
          EndsAt idle since (v.script ++ later) (arrivals v.moment heard) v.moment) ∨
        (heard = v.came ∧ ∃ since', (r.wake session v).1.Waits idle since' ∧
          v.moment < since' + idle ∧ GoesOn idle since v.script since')) := by
  obtain ⟨heard, rest, inbound, hrun, hkeeps, hends⟩ :=
    @run_readAll_of_timely v.scene session v.came r.pumps idle since waits.inbound_eq prompt timely
  have hhandling : ({ r.pumps with inbound } : Pumps).handling = none := waits.handling_eq
  rw [← List.nil_append v.came, ← waits.inbox_eq] at hrun
  rw [wake_of_run waits.handling_eq hhandling hrun, hkeeps.now_eq]
  refine ⟨heard, rfl, ?_⟩
  rcases hends with ⟨hended, hends⟩ | ⟨rfl, rfl, since', rfl, hwaits, hends⟩
  · exact Or.inl ⟨⟨waits.handling_eq, InboundPump.ended_tick hended⟩, fun later _ => hends later⟩
  · rcases Nat.eq_or_lt_of_le hwaits with heq | hlt
    · -- The silence has lasted long enough at this very moment.
      refine Or.inl ⟨⟨waits.handling_eq, ?_⟩, fun later hlater => ?_⟩
      · exact congrArg InboundPump.ended (if_pos (Nat.le_of_eq heq.symm))
      · have hstop : v.moment = since' + idle := heq
        have hsilence : EndsAt idle since' later [] v.moment := by
          rw [hstop] at hlater ⊢
          exact .silence hlater
        have hends := hends later [] v.moment hsilence
        rwa [List.append_nil] at hends
    · exact Or.inr ⟨rfl, since', ⟨rfl, waits.handling_eq, if_neg (Nat.not_le_of_lt hlt)⟩, hlt,
        hends⟩

theorem listen_cons (r : Listener) (session : Session) (v : Visit) (visits : List Visit) :
    r.listen session (v :: visits) =
      let (woken, scene) := (r.expire session v).wake session v
      (scene :: (woken.listen session visits).1, (woken.listen session visits).2) := rfl

/-- If nothing is heard the scenes are left as they are. -/
theorem after_nil (session : Session) : Visit.after session [] = Visit.scene := rfl

/-- What is heard at one moment has no effect at another one. -/
theorem map_after_cons {heard : List Arrival} (session : Session) (items : List Incoming)
    (hlater : ∀ w ∈ visits, v.moment < w.moment) (hheard : ∀ a ∈ heard, v.moment < a.moment) :
    (v :: visits).map (Visit.after session (arrivals v.moment items ++ heard)) =
      items.foldl (Scene.take session) v.scene :: visits.map (Visit.after session heard) := by
  have hnow : heardAt v.moment (arrivals v.moment items ++ heard) = items := by
    rw [heardAt_append, heardAt_arrivals, heardAt_of_ne fun a ha => Nat.ne_of_gt (hheard a ha),
      List.append_nil]
  have hthen : ∀ w ∈ visits, w.after session (arrivals v.moment items ++ heard) =
      w.after session heard := by
    intro w hw
    have hnone : heardAt w.moment (arrivals v.moment items) = [] :=
      heardAt_of_ne fun a ha => moment_of_mem_arrivals ha ▸ Nat.ne_of_lt (hlater w hw)
    rw [Visit.after, heardAt_append, hnone, List.nil_append, Visit.after]
  rw [List.map_cons, List.map_congr_left hthen, Visit.after, hnow]

theorem lt_of_mem_script {moment : Nat} (h : ∀ v ∈ visits, moment < v.moment) {a : Arrival}
    (mem : a ∈ visits.flatMap Visit.script) : moment < a.moment := by
  obtain ⟨v, hv, ha⟩ := List.mem_flatMap.mp mem
  rw [moment_of_mem_arrivals ha]
  exact h v hv

/-- A listener that waits goes on from visit to visit until the end. -/
theorem Waits.listen (waits : r.Waits idle since) (session : Session)
    (ordered : visits.Pairwise fun v w => v.moment < w.moment)
    (prompt : ∀ v ∈ visits, v.scene.Prompt) :
    ∃ heard stop, EndsAt idle since (visits.flatMap Visit.script) heard stop ∧
      (r.listen session visits).1 = visits.map (Visit.after session heard) ∧
      ((r.listen session visits).2.pumps.inbound.ended = true ↔ ∃ v ∈ visits, stop ≤ v.moment) := by
  induction visits generalizing r since with
  | nil =>
    refine ⟨[], since + idle, .silence nofun, rfl, iff_of_false ?_ (by simp)⟩
    rw [Listener.listen, waits.inbound_eq]
    exact Bool.false_ne_true
  | cons v visits ih =>
    obtain ⟨hlater, hordered⟩ := List.pairwise_cons.mp ordered
    obtain ⟨hprompt, hprompts⟩ := List.forall_mem_cons.mp prompt
    have hscript : ∀ a ∈ visits.flatMap Visit.script, v.moment < a.moment :=
      fun a => lt_of_mem_script hlater
    rw [List.flatMap_cons]
    by_cases timely : v.moment ≤ since + idle
    · obtain ⟨heard, hscene, ⟨hdone, hends⟩ | ⟨rfl, since', hwaits, hwaiting, hends⟩⟩ :=
        waits.wake session hprompt timely
      · -- The end comes at this moment.
        obtain ⟨hscenes, hlast⟩ := hdone.listen session visits
        refine ⟨arrivals v.moment heard, v.moment, hends _ hscript, ?_,
          iff_of_true ?_ ⟨v, List.mem_cons_self, Nat.le_refl _⟩⟩
        · have hmap : (v :: visits).map (Visit.after session (arrivals v.moment heard ++ [])) = _ :=
            map_after_cons session heard hlater nofun
          rw [List.append_nil, after_nil] at hmap
          rw [listen_cons, waits.expire_of_timely session timely, hmap]
          exact congrArg₂ List.cons hscene hscenes
        · rw [listen_cons, waits.expire_of_timely session timely]
          exact hlast.ended
      · obtain ⟨heard, stop, hrest, hscenes, hended⟩ := ih hwaits hordered hprompts
        have hheard : ∀ a ∈ heard, v.moment < a.moment := fun a ha => hscript a (hrest.subset ha)
        refine ⟨v.script ++ heard, stop, hends _ _ _ hrest, ?_, ?_⟩
        · rw [listen_cons, waits.expire_of_timely session timely, Visit.script,
            map_after_cons session v.came hlater hheard]
          exact congrArg₂ List.cons hscene hscenes
        · have hnot : ¬ stop ≤ v.moment := Nat.not_le_of_lt (hrest.lt_stop hwaiting hscript)
          rw [listen_cons, waits.expire_of_timely session timely]
          simpa [hnot] using hended
    · -- The listener has been waiting for too long when this moment comes.
      have hlate : since + idle < v.moment := Nat.lt_of_not_le timely
      obtain ⟨hdone, hscene⟩ := (waits.expire_of_late session hlate).wake session v
      obtain ⟨hscenes, hlast⟩ := hdone.listen session visits
      refine ⟨[], since + idle, .silence fun a ha => ?_, congrArg₂ List.cons hscene hscenes,
        iff_of_true hlast.ended ⟨v, List.mem_cons_self, Nat.le_of_lt hlate⟩⟩
      rcases List.mem_append.mp ha with hnow | hlater
      · exact moment_of_mem_arrivals hnow ▸ hlate
      · exact Nat.lt_trans hlate (hscript a hlater)

/-- **Listening.** A listener waits for what a client sends, from a start on, and gives up when
nothing has come for so long. Items come at any moments, and the listener may wake at others as
well; whatever others do, no call takes any time. Then there is an end: the first item that is a
last one, or, if that is earlier, the moment at which nothing has come for so long since the item
before or since the start. What has come before is what is heard, and no more: at every moment the
texts among it are carried out, each once and in the order in which they come, and the listener does
nothing else. Reading ends at the end and not earlier. -/
theorem listen_exactly (session : Session) (outbound : OutboundPump) (idle start : Nat)
    (visits : List Visit) (ordered : visits.Pairwise fun v w => v.moment < w.moment)
    (prompt : ∀ v ∈ visits, v.scene.Prompt) :
    let listener : Listener := { pumps := { inbound := .start idle start, outbound } }
    let listened := listener.listen session visits
    (∃ heard stop, EndsAt idle start (visits.flatMap Visit.script) heard stop) ∧
    ∀ heard stop, EndsAt idle start (visits.flatMap Visit.script) heard stop →
      listened.1 = visits.map (Visit.after session heard) ∧
      (listened.2.pumps.inbound.ended = true ↔ ∃ v ∈ visits, stop ≤ v.moment) := by
  intro listener listened
  have hwaits : listener.Waits idle start := ⟨rfl, rfl, rfl⟩
  obtain ⟨heard, stop, hends, hleft, hended⟩ := hwaits.listen session ordered prompt
  refine ⟨⟨heard, stop, hends⟩, fun heard' stop' hends' => ?_⟩
  obtain ⟨rfl, rfl⟩ := hends.unique hends'
  exact ⟨hleft, hended⟩

/-- The session of Alice. -/
def caller : Session := ⟨.version4 0, "alice"⟩

/-- A scene at a moment, in which the session of Alice is registered. -/
def booth (moment : Nat) : Scene where
  gateway :=
    { ((Petition.nowhere.newSession "alice" 4).2.step (.enroll caller)).2 with elapsed := moment }

theorem prompt_booth (moment : Nat) : (booth moment).Prompt := Scene.prompt_of_unhindered rfl

/-- Alice sends something that is no command and a ping, and then joins a room; what she sends after
that comes too late. -/
def longPause : List Visit :=
  let join := "\x7b\"type\":\"join_room\",\"payload\":\x7b\"roomId\":\"general\"\x7d\x7d"
  [⟨booth 5, [.text "oops", .ping]⟩, ⟨booth 12, [.text join]⟩, ⟨booth 30, [.text join]⟩]

/-- Alice is a member of the room at the second moment, and reading ends before the third one. -/
theorem listen_exactly_of_longPause :
    let listened := listen caller { pumps := { inbound := .start 10 0, outbound := .start {} 0 } }
      longPause
    let heard := (longPause.take 2).flatMap Visit.script
    EndsAt 10 0 (longPause.flatMap Visit.script) heard 22 ∧
    listened.1 = longPause.map (Visit.after caller heard) ∧
    (listened.1.map fun s => (s.gateway.hub.registry.members "general").map (·.userId)) =
      [[], ["alice"], []] ∧
    listened.2.pumps.inbound.ended = true := by
  have hends : EndsAt 10 0 (longPause.flatMap Visit.script)
      ((longPause.take 2).flatMap Visit.script) 22 :=
    .next rfl (by decide) (.next rfl (by decide) (.next rfl (by decide) (.silence (by decide))))
  have hprompt : ∀ v ∈ longPause, v.scene.Prompt := by
    simp [longPause, prompt_booth]
  have hjoined : ((longPause.map (Visit.after caller ((longPause.take 2).flatMap Visit.script))).map
      fun s => (s.gateway.hub.registry.members "general").map (·.userId)) =
      [[], ["alice"], []] := by
    decide +kernel
  obtain ⟨-, hlistens⟩ := listen_exactly caller (.start {} 0) 10 0 longPause (by decide) hprompt
  obtain ⟨hleft, hended⟩ := hlistens _ _ hends
  exact ⟨hends, hleft, (congrArg _ hleft).trans hjoined, hended.mpr (by decide)⟩

end Listener

end RoomRelay
