import RoomRelay.Proofs.Connection.Concourse

/-!
# What a connection does at once

A connection reads, writes and leaves, each as far as that goes at once. Each of these is a sequence
of the small steps that connections take side by side: a routine that is carried out until it ends
or pauses is one call after the other, and so are all frames that are written in one go. The other
way round no connection is ever stuck: some such steps lead it to its end.

## Main definitions

* `Routine.Leads`, `Routine.Carries` — a routine leads to what is left of it after some calls
* `Concourse.Reaches` — what runs can lead to
* `Link.Does`, `Link.Acts` — what one connection can do among others, and what it does at once

## Main results

* `Routine.carries_proceed`, `Paused.carries_resume` — routines that take time
* `Link.acts_read`, `Link.acts_write`, `Link.acts_drive` — reading, writing and leaving
* `Link.canEnd` — a connection can come to its end
-/

namespace RoomRelay

open Routine

variable {α : Type} {g g' g'' : Gateway}

/-! ### Routines that take time -/

namespace Routine

/-- Some calls of a routine are answered, one after the other. -/
inductive Leads : Gateway → Routine α → Gateway → Routine α → Prop
  | refl (g : Gateway) (r : Routine α) : Leads g r g r
  | call {g g' g'' : Gateway} {request : Call} {next : request.Reply → Routine α}
    {reply : request.Reply} {r : Routine α} (replies : g.Replies request reply g')
    (leads : Leads g' (next reply) g'' r) : Leads g (.call request next) g'' r

/-- From one scene to another one, in which nobody waits for a marker to be cleared either, a
routine leads to what is left of it. -/
structure Carries (s : Scene) (r : Routine α) (outcome : Progress α × Scene) : Prop where
  leads : Leads s.gateway r outcome.2.gateway outcome.1.rest
  alone : outcome.2.newcomer = none

end Routine

theorem Table.insert_insert {κ ν : Type} [DecidableEq κ] (t : Table κ ν) (key : κ) (v w : ν) :
    (t.insert key v).insert key w = t.insert key w := by
  obtain ⟨entries, hnodup⟩ := t
  have hput : put key w (put key v entries) = put key w entries := by
    clear hnodup
    induction entries with
    | nil => simp [put]
    | cons e rest ih =>
      obtain ⟨k, u⟩ := e
      by_cases hk : k = key
      · simp [put, hk]
      · simp [put, hk, ih]
  simp [insert, hput]

/-- A queue that is replaced twice is replaced once. -/
theorem Hub.setMailbox_setMailbox {hub : Hub} {id : SessionId} {m m' : Mailbox} :
    (hub.setMailbox id m).setMailbox id m' = hub.setMailbox id m' := by
  simp [setMailbox, Table.insert_insert]

theorem Scene.replies_answer {s : Scene} {request : Call} {reason : Option String} :
    s.gateway.Replies request (s.answer request reason).1 (s.answer request reason).2.gateway := by
  unfold answer
  split
  · rename_i reply hreply
    obtain ⟨reason, -, hfails⟩ := Option.bind_eq_some_iff.mp hreply
    exact .failed hfails
  · exact .answered (.plain request)

theorem Scene.newcomer_answer {s : Scene} {request : Call} {reason : Option String} :
    (s.answer request reason).2.newcomer = s.newcomer := by
  unfold answer
  split <;> rfl

theorem Scene.welcome_of_alone {s : Scene} {request : Call} {reason : Option String}
    (h : s.newcomer = none) : s.welcome request reason = (none, s) := by
  obtain ⟨gateway, obstacles, marks, newcomer⟩ := s
  obtain rfl : newcomer = none := h
  unfold welcome
  split <;> rfl

theorem Scene.gateway_remember {s : Scene} {request : Call} :
    (s.remember request).gateway = s.gateway := by
  unfold remember
  split
  · split <;> rfl
  · rfl

theorem Scene.newcomer_remember {s : Scene} {request : Call} :
    (s.remember request).newcomer = s.newcomer := by
  unfold remember
  split
  · split <;> rfl
  · rfl

namespace Routine

variable {request : Call} {next : request.Reply → Routine α} {s : Scene}

/-- A call that has begun is answered, and the routine goes on from there. -/
theorem carries_conclude {reason : Option String} {goOn : request.Reply → StateM Scene (Progress α)}
    (alone : s.newcomer = none)
    (hgo : ∀ reply s', s'.newcomer = none → Carries s' (next reply) ((goOn reply).run s')) :
    ∃ reply g', s.gateway.Replies request reply g' ∧
      Leads g' (next reply) ((conclude request reason next goOn).run s).2.gateway
        ((conclude request reason next goOn).run s).1.rest ∧
      ((conclude request reason next goOn).run s).2.newcomer = none := by
  have halone : (s.answer request reason).2.newcomer = none := Scene.newcomer_answer.trans alone
  have heq : (conclude request reason next goOn).run s =
      (goOn (s.answer request reason).1).run (s.answer request reason).2 := by
    have hwelcome := @Scene.welcome_of_alone _ request reason halone
    simp [conclude, hwelcome]
  obtain ⟨hleads, hnone⟩ := hgo (s.answer request reason).1 _ halone
  rw [heq]
  exact ⟨_, _, Scene.replies_answer, hleads, hnone⟩

/-- A routine is carried out as far as it goes at once. -/
theorem carries_proceed (r : Routine α) (alone : s.newcomer = none) :
    Carries s r (r.proceed.run s) := by
  induction r generalizing s with
  | done a => exact ⟨.refl _ _, alone⟩
  | call request next ih =>
    have hgateway : (s.remember request).gateway = s.gateway := Scene.gateway_remember
    have hremember : (s.remember request).newcomer = none := Scene.newcomer_remember.trans alone
    generalize hs : s.remember request = s' at hgateway hremember
    by_cases hdelay : (s'.obstacle request).delay = 0
    · have heq : (proceed (.call request next)).run s =
          (conclude request (s'.obstacle request).reason next fun reply =>
            (next reply).proceed).run s' := by
        simp [proceed, begin, hs, hdelay]
      obtain ⟨reply, g', hreplies, hleads, hnone⟩ :=
        carries_conclude hremember fun reply s' => ih reply
      rw [heq]
      rw [hgateway] at hreplies
      exact ⟨.call hreplies hleads, hnone⟩
    · -- The call takes time, so it has begun and done nothing yet.
      have heq : (proceed (.call request next)).run s =
          (.paused ⟨request, (s'.obstacle request).reason,
            s'.now + (s'.obstacle request).delay, next⟩, s') := by
        simp [proceed, begin, hs, hdelay]
        rfl
      rw [heq]
      refine ⟨?_, hremember⟩
      dsimp only
      rw [hgateway]
      exact .refl _ _

end Routine

/-- A routine that was paused goes on. -/
theorem Paused.carries_resume (p : Paused α) {s : Scene} (alone : s.newcomer = none) :
    ∃ reply g', s.gateway.Replies p.request reply g' ∧
      Leads g' (p.next reply) (p.resume.run s).2.gateway (p.resume.run s).1.rest ∧
      (p.resume.run s).2.newcomer = none :=
  carries_conclude alone fun reply _ => carries_proceed (p.next reply)

/-! ### What one connection can do -/

variable {limits : HubConfig} {c c' c'' : Concourse} {l l' l'' : Link}

namespace Concourse

/-- Some run leads from one state to the other one. -/
def Reaches (limits : HubConfig) (c c' : Concourse) : Prop := ∃ past, Run limits c past c'

theorem Reaches.refl (c : Concourse) : Reaches limits c c := ⟨[], .nil⟩

theorem Reaches.trans (h : Reaches limits c c') (h' : Reaches limits c' c'') :
    Reaches limits c c'' := by
  obtain ⟨past, run⟩ := h
  obtain ⟨more, run'⟩ := h'
  exact ⟨past ++ more, run.append run'⟩

theorem Step.reaches {event : Event} (h : Step limits c event c') : Reaches limits c c' :=
  ⟨_, .snoc .nil h⟩

end Concourse

theorem Incoming.eq_text {item : Incoming} {text : String} (h : item.text? = some text) :
    item = .text text := by
  cases item with
  | text other => rw [Option.some_inj.mp h]
  | _ => exact absurd h (by simp [text?])

/-- The pumps after an item has been read. -/
def Pumps.heard (p : Pumps) (now : Nat) (item : Incoming) : Pumps :=
  { p with inbound := (p.inbound.receive now item).2 }

namespace Link

/-- One connection comes from one point to another one, wherever it stands among others and whatever
has been given up or asked for by others. -/
def Does (limits : HubConfig) (g : Gateway) (l : Link) (g' : Gateway) (l' : Link) : Prop :=
  ∀ before after strays tasks, ∃ strays',
    Concourse.Reaches limits ⟨g, before ++ l :: after, strays, tasks⟩
      ⟨g', before ++ l' :: after, strays', tasks⟩

theorem Does.refl (g : Gateway) (l : Link) : l.Does limits g g l :=
  fun _ _ strays _ => ⟨strays, .refl _⟩

theorem Does.trans (h : l.Does limits g g' l') (h' : l'.Does limits g' g'' l'') :
    l.Does limits g g'' l'' := by
  intro before after strays tasks
  obtain ⟨strays', hreaches⟩ := h before after strays tasks
  obtain ⟨strays'', hreaches'⟩ := h' before after strays' tasks
  exact ⟨strays'', hreaches.trans hreaches'⟩

theorem Step.does {event : Concourse.Event} {givenUp : List Stray}
    (h : l.Step limits g event g' l' givenUp) : l.Does limits g g' l' :=
  fun _ _ strays _ => ⟨strays ++ givenUp, (Concourse.Step.link h).reaches⟩

/-- A connection carries a routine on: if it does so with each call, it does so with all. -/
theorem does_of_leads {put : Progress α → Link}
    (hput : ∀ (rest : Paused α) reply (g g' : Gateway) progress,
      g.Replies rest.request reply g' → progress.rest = rest.next reply →
        (put (.paused rest)).Does limits g g' (put progress))
    {rest : Paused α} {reply : rest.request.Reply} {progress : Progress α}
    (replies : g.Replies rest.request reply g')
    (leads : Leads g' (rest.next reply) g'' progress.rest) :
    (put (.paused rest)).Does limits g g'' (put progress) := by
  generalize hr : rest.next reply = r at leads
  generalize hr' : progress.rest = r' at leads
  -- After each call but the last one, the connection waits for the answer to the next one.
  induction leads generalizing g rest with
  | refl => exact hput rest reply _ _ progress replies (hr'.trans hr.symm)
  | @call g₁ g₂ g₃ request next answer r replies' leads ih =>
    have hfirst := hput rest reply _ _ (.paused ⟨request, none, 0, next⟩) replies hr.symm
    exact hfirst.trans (ih replies' rfl hr')

theorem does_enter {rest : Paused Bool} {reply : rest.request.Reply} {progress : Progress Bool}
    {now : Nat} (phase_eq : l.phase = .registering rest)
    (replies : g.Replies rest.request reply g')
    (leads : Leads g' (rest.next reply) g'' progress.rest) :
    l.Does limits g g'' (l.entered limits now progress) := by
  -- A connection that waits for its next answer has come as far as it is.
  have hl : l.entered limits now (.paused rest) = l := by rw [entered, ← phase_eq]
  have hdoes : (l.entered limits now (.paused rest)).Does limits g g''
      (l.entered limits now progress) := by
    refine does_of_leads ?_ replies leads
    intro rest reply g g' progress replies progress_eq
    have hentered : (l.entered limits now (.paused rest)).entered limits now progress =
        l.entered limits now progress := by
      cases progress with
      | finished result => cases result <;> rfl
      | paused => rfl
    rw [← hentered]
    exact (Step.enter rfl replies progress_eq).does
  rwa [hl] at hdoes

theorem does_exit {rest : Paused Bool} {reply : rest.request.Reply} {progress : Progress Bool}
    (phase_eq : l.phase = .leaving rest) (replies : g.Replies rest.request reply g')
    (leads : Leads g' (rest.next reply) g'' progress.rest) :
    l.Does limits g g'' (l.left progress) := by
  have hl : l.left (.paused rest) = l := by rw [left, ← phase_eq]
  have hdoes : (l.left (.paused rest)).Does limits g g'' (l.left progress) := by
    refine does_of_leads ?_ replies leads
    intro rest reply g g' progress replies progress_eq
    have hleft : (l.left (.paused rest)).left progress = l.left progress := by
      cases progress <;> rfl
    rw [← hleft]
    exact (Step.exit rfl replies progress_eq).does
  rwa [hl] at hdoes

/-- The connection after a call of the text that is being acted upon. -/
def handled (l : Link) (p : Pumps) (now : Nat) (progress : Progress Unit) : Link :=
  { l with phase := .serving (p.handled now progress) }

theorem does_handle {p : Pumps} {task : Paused Unit} {reply : task.request.Reply}
    {progress : Progress Unit} {now : Nat} (phase_eq : l.phase = .serving p)
    (handling_eq : p.handling = some task) (replies : g.Replies task.request reply g')
    (leads : Leads g' (task.next reply) g'' progress.rest) :
    l.Does limits g g'' (l.handled p now progress) := by
  have hl : l.handled p now (.paused task) = l := by
    rw [handled, Pumps.handled, ← handling_eq, ← phase_eq]
  have hdoes : (l.handled p now (.paused task)).Does limits g g'' (l.handled p now progress) := by
    refine does_of_leads ?_ replies leads
    intro rest reply g g' progress replies progress_eq
    have hhandled : (l.handled p now (.paused rest)).handled (p.handled now (.paused rest)) now
        progress = l.handled p now progress := by
      cases progress <;> rfl
    rw [← hhandled]
    exact (Step.handle rfl rfl replies progress_eq).does
  rwa [hl] at hdoes

/-! ### Reading -/

/-- What a connection does at once, if nobody waits for a marker to be cleared. -/
structure Acts (limits : HubConfig) (s : Scene) (l : Link) (outcome : Link × Scene) : Prop where
  does : l.Does limits s.gateway outcome.2.gateway outcome.1
  alone : outcome.2.newcomer = none

/-- A connection does nothing. -/
theorem Acts.of_eq_self {s : Scene} {outcome : Link × Scene} (h : outcome = (l, s))
    (alone : s.newcomer = none) : l.Acts limits s outcome := by
  rw [h]
  exact ⟨.refl _ _, alone⟩

theorem Acts.after {s s' : Scene} {outcome : Link × Scene}
    (h : l.Does limits s.gateway s'.gateway l') (h' : l'.Acts limits s' outcome) :
    l.Acts limits s outcome :=
  ⟨h.trans h'.does, h'.alone⟩

/-- The connection with so much left to read. -/
def reading (l : Link) (inbox : List Incoming) (p : Pumps) : Link :=
  { l with inbox, phase := .serving p }

theorem reading_self {p : Pumps} (phase_eq : l.phase = .serving p) : l.reading l.inbox p = l := by
  rw [reading, ← phase_eq]

theorem acts_handleOn {p : Pumps} {s : Scene} (phase_eq : l.phase = .serving p)
    (alone : s.newcomer = none) :
    l.Acts limits s (l.reading l.inbox ((handleOn p).run s).1, ((handleOn p).run s).2) := by
  cases handling_eq : p.handling with
  | none =>
    have heq : (handleOn p).run s = (p, s) := by
      simp [handleOn, handling_eq]
      rfl
    exact .of_eq_self (by rw [heq, reading_self phase_eq]) alone
  | some task =>
    by_cases hwakes : s.now < task.wakes
    · have heq : (handleOn p).run s = (p, s) := by
        simp [handleOn, handling_eq, hwakes]
        rfl
      exact .of_eq_self (by rw [heq, reading_self phase_eq]) alone
    · obtain ⟨reply, g', hreplies, hleads, hnone⟩ := task.carries_resume alone
      have heq : (handleOn p).run s =
          (p.handled s.now (task.resume.run s).1, (task.resume.run s).2) := by
        simp [handleOn, handling_eq, hwakes]
        generalize task.resume.run s = outcome
        obtain ⟨progress, s'⟩ := outcome
        cases progress <;> rfl
      rw [heq]
      exact ⟨does_handle phase_eq handling_eq hreplies hleads, hnone⟩

section Item

variable {p : Pumps} {item : Incoming} {inbox : List Incoming} {now : Nat} {text : String}
variable (phase_eq : l.phase = .serving p) (idle : p.handling = none)
variable (reading : p.inbound.ended = false) (inbox_eq : l.inbox = item :: inbox)

include phase_eq idle reading inbox_eq

/-- An item is read that asks for nothing. -/
theorem does_skip (hnone : (p.inbound.receive now item).1 = none) :
    l.Does limits g g (l.reading inbox (p.heard now item)) := by
  have hstep : l.Step limits g .quiet g
      (l.reading inbox { p.heard now item with handling := none }) [] := by
    refine .read phase_eq idle reading inbox_eq ?_
    rw [hnone]
    rfl
  rw [← idle] at hstep
  exact hstep.does

/-- A text is read and acted upon. -/
theorem does_hear {progress : Progress Unit} (hsome : (p.inbound.receive now item).1 = some text)
    (leads : Leads g (handleText l.session text) g' progress.rest) :
    l.Does limits g g' ((l.reading inbox p).handled (p.heard now item) now progress) := by
  -- Reading takes in the whole routine, whatever its first call is.
  have hread : ∀ task : Paused Unit, task.rest = handleText l.session text →
      l.Does limits g g (l.reading inbox { p.heard now item with handling := some task }) := by
    intro task htask
    refine (Step.read phase_eq idle reading inbox_eq ?_).does
    rw [hsome, Option.map_some, Option.map_some, htask]
  generalize hr : handleText l.session text = r at leads hread
  generalize hr' : progress.rest = r' at leads
  cases leads with
  | refl =>
    cases progress with
    | finished => exact absurd (hr.trans hr'.symm) nofun
    | paused task => exact hread task hr'
  | @call _ g₁ _ request next reply _ replies leads =>
    subst hr'
    -- The text has been read as soon as its first call begins; the rest is acting upon it.
    have hbegun := hread ⟨request, none, 0, next⟩ rfl
    refine hbegun.trans ?_
    have hdone : (l.reading inbox p).handled (p.heard now item) now progress =
        (l.reading inbox p).handled
          { p.heard now item with handling := some ⟨request, none, 0, next⟩ } now progress := by
      cases progress <;> rfl
    rw [hdone]
    exact does_handle rfl rfl replies leads

end Item

/-- A text that takes no time is done when it is read, and the silence begins there. -/
theorem handled_heard {p : Pumps} {item : Incoming} {inbox : List Incoming} {text : String}
    {now : Nat} (idle : p.handling = none) (htext : item.text? = some text) :
    (l.reading inbox p).handled (p.heard now item) now (.finished ()) =
      l.reading inbox (p.heard now item) := by
  obtain rfl := Incoming.eq_text htext
  simp [handled, Link.reading, Pumps.handled, Pumps.heard, InboundPump.receive, Incoming.isLast,
    InboundPump.restart, idle]

/-- Who reads no more leaves everything as it is. -/
theorem run_readAll_of_ended {session : Session} {inbox : List Incoming} {p : Pumps} {s : Scene}
    (ended : p.inbound.ended = true) : (readAll session inbox p).run s = ((inbox, p), s) := by
  cases inbox with
  | nil => rfl
  | cons item inbox =>
    simp [readAll, ended]
    rfl

/-- An item that is no text is read, and that is all. -/
theorem run_readAll_of_wordless {session : Session} {item : Incoming} {inbox : List Incoming}
    {p : Pumps} {s : Scene} (running : p.inbound.ended = false) (htext : item.text? = none) :
    (readAll session (item :: inbox) p).run s =
      (readAll session inbox (p.heard s.now item)).run s := by
  simp [readAll, running, InboundPump.receive, htext, Pumps.heard]

/-- A text that takes no time is acted upon before the next item is read. -/
theorem run_readAll_of_finished {session : Session} {item : Incoming} {inbox : List Incoming}
    {p : Pumps} {s s' : Scene} {text : String} (running : p.inbound.ended = false)
    (htext : item.text? = some text)
    (hout : (handleText session text).proceed.run s = (.finished (), s')) :
    (readAll session (item :: inbox) p).run s =
      (readAll session inbox (p.heard s.now item)).run s' := by
  simp [readAll, running, InboundPump.receive, htext, Pumps.heard, hout]
  rfl

theorem acts_readAll {inbox : List Incoming} {p : Pumps} {s : Scene}
    (phase_eq : l.phase = .serving p) (idle : p.handling = none) (inbox_eq : l.inbox = inbox)
    (alone : s.newcomer = none) :
    l.Acts limits s (l.reading ((readAll l.session inbox p).run s).1.1
      ((readAll l.session inbox p).run s).1.2, ((readAll l.session inbox p).run s).2) := by
  induction inbox generalizing l p s with
  | nil =>
    have heq : (readAll l.session [] p).run s = (([], p), s) := rfl
    exact .of_eq_self (by rw [heq, ← inbox_eq, reading_self phase_eq]) alone
  | cons item inbox ih =>
    cases hended : p.inbound.ended with
    | true =>
      refine .of_eq_self ?_ alone
      rw [run_readAll_of_ended hended, ← inbox_eq, reading_self phase_eq]
    | false =>
      cases htext : item.text? with
      | none =>
        rw [run_readAll_of_wordless hended htext]
        exact .after (does_skip phase_eq idle hended inbox_eq htext) (ih rfl idle rfl alone)
      | some text =>
        -- The text is acted upon until that is finished or has to pause for a reply.
        have hcarries := carries_proceed (handleText l.session text) alone
        generalize hout : (handleText l.session text).proceed.run s = outcome at hcarries
        obtain ⟨progress, s'⟩ := outcome
        obtain ⟨hleads, halone⟩ := hcarries
        have hhear : l.Does limits s.gateway s'.gateway
            ((l.reading inbox p).handled (p.heard s.now item) s.now progress) :=
          does_hear phase_eq idle hended inbox_eq htext hleads
        cases progress with
        | finished =>
          rw [run_readAll_of_finished hended htext hout]
          rw [handled_heard idle htext] at hhear
          exact .after hhear (ih rfl idle rfl halone)
        | paused task =>
          have heq : (readAll l.session (item :: inbox) p).run s =
              ((inbox, { p.heard s.now item with handling := some task }), s') := by
            simp [readAll, hended, InboundPump.receive, htext, Pumps.heard, hout]
            rfl
          rw [heq]
          exact ⟨hhear, halone⟩

theorem acts_readOn {p : Pumps} {s : Scene} (phase_eq : l.phase = .serving p)
    (alone : s.newcomer = none) :
    l.Acts limits s (l.reading ((readOn l.session l.inbox p).run s).1.1
      ((readOn l.session l.inbox p).run s).1.2, ((readOn l.session l.inbox p).run s).2) := by
  have hhandled : l.Acts limits s (l.reading l.inbox ((handleOn p).run s).1, _) :=
    acts_handleOn phase_eq alone
  generalize hout : (handleOn p).run s = outcome at hhandled
  obtain ⟨p', s'⟩ := outcome
  replace hout : (handleOn p).run s = (pure (p', s') : Id _) := hout
  cases hbusy : p'.handling with
  | some task =>
    have heq : (readOn l.session l.inbox p).run s = ((l.inbox, p'), s') := by
      simp [readOn, hout, hbusy]
      rfl
    rw [heq]
    exact hhandled
  | none =>
    have hread : (l.reading l.inbox p').Acts limits s'
        (l.reading ((readAll l.session l.inbox p').run s').1.1
          ((readAll l.session l.inbox p').run s').1.2, ((readAll l.session l.inbox p').run s').2) :=
      acts_readAll rfl hbusy rfl hhandled.alone
    generalize hout' : (readAll l.session l.inbox p').run s' = outcome' at hread
    obtain ⟨⟨inbox, p''⟩, s''⟩ := outcome'
    replace hout' : (readAll l.session l.inbox p').run s' = (pure ((inbox, p''), s'') : Id _) :=
      hout'
    cases hbusy' : p''.handling with
    | some task =>
      have heq : (readOn l.session l.inbox p).run s = ((inbox, p''), s'') := by
        simp [readOn, hout, hbusy, hout', hbusy']
        rfl
      rw [heq]
      exact .after hhandled.does hread
    | none =>
      have heq : (readOn l.session l.inbox p).run s =
          ((inbox, { p'' with inbound := p''.inbound.tick s''.now }), s'') := by
        simp [readOn, hout, hbusy, hout', hbusy']
        rfl
      rw [heq]
      -- All that could be read has been, and the clock is looked at last.
      have htick : (l.reading inbox p'').Does limits s''.gateway s''.gateway
          (l.reading inbox { p'' with inbound := p''.inbound.tick s''.now }) :=
        (Step.tick rfl hbusy').does
      exact ⟨(hhandled.does.trans hread.does).trans htick, hread.alone⟩

theorem acts_read {s : Scene} (alone : s.newcomer = none) :
    l.Acts limits s ((l.read limits).run s) := by
  cases phase_eq : l.phase with
  | registering rest =>
    by_cases hwakes : s.now < rest.wakes
    · refine .of_eq_self ?_ alone
      simp [read, phase_eq, hwakes]
      rfl
    · obtain ⟨reply, g', hreplies, hleads, hnone⟩ := rest.carries_resume alone
      have heq : (l.read limits).run s =
          (l.entered limits s.now (rest.resume.run s).1, (rest.resume.run s).2) := by
        simp [read, phase_eq, hwakes]
        rfl
      rw [heq]
      exact ⟨does_enter phase_eq hreplies hleads, hnone⟩
  | serving p =>
    have heq : (l.read limits).run s = (l.reading ((readOn l.session l.inbox p).run s).1.1
        ((readOn l.session l.inbox p).run s).1.2, ((readOn l.session l.inbox p).run s).2) := by
      simp [read, phase_eq]
      rfl
    rw [heq]
    exact acts_readOn phase_eq alone
  | _ =>
    refine .of_eq_self ?_ alone
    simp [read, phase_eq]
    rfl

/-! ### Writing and leaving -/

theorem does_client {l' : Link} (session_eq : l'.session = l.session)
    (phase_eq : l'.phase = l.phase) : l.Does limits g g l' :=
  (Step.client session_eq phase_eq).does

/-- Something happens to a queue that does not open it. -/
theorem does_queue {id : SessionId} {m : Mailbox}
    (shut : g.hub.isClosed id = true → m.isClosed = true) :
    l.Does limits g { g with hub := g.hub.setMailbox id m } l :=
  fun _ _ strays _ => ⟨strays, (Concourse.Step.queue fun _ => shut).reaches⟩

/-- A writer does nothing, but its queue is put back. -/
theorem does_stay {p : Pumps} {w : Writer} (phase_eq : l.phase = .serving p)
    (pump_eq : p.outbound = w.pump) (mailbox_eq : g.hub.mailbox l.session.id = w.mailbox) :
    l.Does limits g { g with hub := g.hub.setMailbox l.session.id w.mailbox }
      { l with phase := .serving { p with outbound := w.pump } } := by
  rw [← mailbox_eq, ← pump_eq, ← phase_eq]
  exact does_queue fun hclosed => hclosed

theorem does_advance {now : Nat} (steps : Nat) {p : Pumps} {w : Writer}
    (phase_eq : l.phase = .serving p) (pump_eq : p.outbound = w.pump)
    (mailbox_eq : g.hub.mailbox l.session.id = w.mailbox) :
    l.Does limits g
      { g with hub := g.hub.setMailbox l.session.id (w.advance now steps).mailbox }
      { l with phase := .serving { p with outbound := (w.advance now steps).pump } } := by
  -- The writer of the next step finds the queue as this one leaves it.
  induction steps generalizing g l p w with
  | zero => exact does_stay phase_eq pump_eq mailbox_eq
  | succ steps ih =>
    cases hstep : w.step? now with
    | none =>
      rw [Writer.advance, hstep]
      exact does_stay phase_eq pump_eq mailbox_eq
    | some w' =>
      rw [Writer.advance, hstep]
      have hwrites : Writer.step? ⟨p.outbound, g.hub.mailbox l.session.id, w.sink, w.written⟩ now =
          some w' := by
        rw [pump_eq, mailbox_eq]
        exact hstep
      refine (Step.write phase_eq hwrites).does.trans ?_
      have hqueue :
          (g.hub.setMailbox l.session.id w'.mailbox).mailbox l.session.id = w'.mailbox := by
        rw [Hub.mailbox_setMailbox, if_pos rfl]
      have hmore := @ih { g with hub := g.hub.setMailbox l.session.id w'.mailbox }
        { l with phase := .serving { p with outbound := w'.pump } }
        { p with outbound := w'.pump } w' rfl rfl hqueue
      -- The queue is replaced at each step, so only the last time counts.
      simp only [Hub.setMailbox_setMailbox] at hmore
      exact hmore

theorem acts_write {s : Scene} (alone : s.newcomer = none) :
    l.Acts limits s (l.write.run s) := by
  cases phase_eq : l.phase with
  | serving p =>
    generalize hw : (⟨p.outbound, s.gateway.hub.mailbox l.session.id, l.way p, []⟩ : Writer) = w
    have heq : l.write.run s =
        ({ l with
          phase := .serving { p with outbound := (w.run s.now).pump }
          sink := (w.run s.now).sink
          received := (w.run s.now).written ++ l.received
          inbox := l.inbox ++ l.echo (w.run s.now).written },
        { s with gateway := { s.gateway with
          hub := s.gateway.hub.setMailbox l.session.id (w.run s.now).mailbox } }) := by
      simp [write, phase_eq, hw]
      rfl
    have hadvance : l.Does limits s.gateway
        { s.gateway with hub := s.gateway.hub.setMailbox l.session.id (w.run s.now).mailbox }
        { l with phase := .serving { p with outbound := (w.run s.now).pump } } :=
      does_advance _ phase_eq (by rw [← hw]) (by rw [← hw])
    rw [heq]
    exact ⟨hadvance.trans (does_client rfl rfl), alone⟩
  | _ =>
    refine .of_eq_self ?_ alone
    simp [write, phase_eq]
    rfl

/-- The receiving end of a queue is dropped. -/
theorem does_drop {id : SessionId} : l.Does limits g
    { g with hub := g.hub.setMailbox id (g.hub.mailbox id).dropReceiver } l :=
  does_queue fun hclosed => hclosed

theorem does_leave {p : Pumps} {progress : Progress Bool} (phase_eq : l.phase = .serving p)
    (finished : isFinished p (g.hub.mailbox l.session.id) = true)
    (leads : Leads
      { g with hub := g.hub.setMailbox l.session.id (g.hub.mailbox l.session.id).dropReceiver }
      (unregister l.session) g' progress.rest) :
    l.Does limits g g' (l.left progress) := by
  generalize hr : unregister l.session = r at leads
  generalize hr' : progress.rest = r' at leads
  cases leads with
  | refl => exact (Step.leave phase_eq finished (hr'.trans hr.symm)).does.trans does_drop
  | @call _ g₁ _ request next reply _ replies leads =>
    subst hr'
    -- The connection leaves with its first call ahead of it, and drops its end of the queue.
    have hbegun : l.Step limits g _ _ (l.left (.paused ⟨request, none, 0, next⟩)) _ :=
      .leave phase_eq finished hr.symm
    have hleft : (l.left (.paused ⟨request, none, 0, next⟩)).left progress = l.left progress := by
      cases progress <;> rfl
    rw [← hleft]
    exact (hbegun.does.trans does_drop).trans (does_exit rfl replies leads)

theorem acts_drive {s : Scene} (alone : s.newcomer = none) :
    l.Acts limits s (l.drive.run s) := by
  cases phase_eq : l.phase with
  | serving p =>
    by_cases hfinished : isFinished p (s.gateway.hub.mailbox l.session.id) = true
    · let s' : Scene := { s with gateway := { s.gateway with
          hub := s.gateway.hub.setMailbox l.session.id
            (s.gateway.hub.mailbox l.session.id).dropReceiver } }
      have hcarries : Carries s' _ _ := carries_proceed (unregister l.session) alone
      have heq : l.drive.run s = (l.left ((unregister l.session).proceed.run s').1,
          ((unregister l.session).proceed.run s').2) := by
        simp [drive, phase_eq, hfinished]
        rfl
      rw [heq]
      exact ⟨does_leave phase_eq hfinished hcarries.leads, hcarries.alone⟩
    · refine .of_eq_self ?_ alone
      simp [drive, phase_eq, hfinished]
      rfl
  | leaving rest =>
    by_cases hwakes : s.now < rest.wakes
    · refine .of_eq_self ?_ alone
      simp [drive, phase_eq, hwakes]
      rfl
    · obtain ⟨reply, g', hreplies, hleads, hnone⟩ := rest.carries_resume alone
      have heq : l.drive.run s = (l.left (rest.resume.run s).1, (rest.resume.run s).2) := by
        simp [drive, phase_eq, hwakes]
        rfl
      rw [heq]
      exact ⟨does_exit phase_eq hreplies hleads, hnone⟩
  | _ =>
    refine .of_eq_self ?_ alone
    simp [drive, phase_eq]
    rfl

end Link

/-! ### Every connection can come to its end -/

/-- If stores do not fail, a routine comes to its end. -/
theorem Routine.exists_leads_done (r : Routine α) (g : Gateway) :
    ∃ g' a, Leads g r g' (.done a) := by
  induction r generalizing g with
  | done a => exact ⟨g, a, .refl _ _⟩
  | call request next ih =>
    obtain ⟨g', a, hleads⟩ := ih (g.step request).1 (g.step request).2
    exact ⟨g', a, .call (.answered (.plain request)) hleads⟩

namespace Link

/-- The connection can come to its end. -/
def CanEnd (limits : HubConfig) (g : Gateway) (l : Link) : Prop :=
  ∃ g' l', l.Does limits g g' l' ∧ l'.phase = .over

theorem CanEnd.after (h : l.Does limits g g' l') (h' : l'.CanEnd limits g') :
    l.CanEnd limits g := by
  obtain ⟨g'', l'', hend, hover⟩ := h'
  exact ⟨g'', l'', h.trans hend, hover⟩

theorem canEnd_of_finished {p : Pumps} (phase_eq : l.phase = .serving p)
    (finished : isFinished p (g.hub.mailbox l.session.id) = true) : l.CanEnd limits g := by
  obtain ⟨g', result, hleads⟩ := exists_leads_done (unregister l.session)
    { g with hub := g.hub.setMailbox l.session.id (g.hub.mailbox l.session.id).dropReceiver }
  have hleave : l.Does limits g g' (l.left (.finished result)) :=
    does_leave phase_eq finished hleads
  exact ⟨g', _, hleave, rfl⟩

theorem canEnd_of_idle {p : Pumps} (phase_eq : l.phase = .serving p)
    (idle : p.handling = none) : l.CanEnd limits g := by
  cases hended : p.inbound.ended with
  | true => exact canEnd_of_finished phase_eq (by simp [isFinished, hended])
  | false =>
    -- The client goes, and the connection notices that.
    have hgone : l.Does limits g g { l with inbox := [.gone] } := does_client rfl rfl
    have hread : ({ l with inbox := [.gone] } : Link).Does limits g g
        (({ l with inbox := [.gone] } : Link).reading [] (p.heard 0 .gone)) :=
      does_skip phase_eq idle hended rfl rfl
    exact .after (hgone.trans hread) (canEnd_of_finished rfl rfl)

theorem canEnd_of_serving {p : Pumps} (phase_eq : l.phase = .serving p) : l.CanEnd limits g := by
  cases handling_eq : p.handling with
  | none => exact canEnd_of_idle phase_eq handling_eq
  | some task =>
    obtain ⟨g', result, hleads⟩ := exists_leads_done (task.next (g.step task.request).1)
      (g.step task.request).2
    -- The text is acted upon to its end first, as nothing is read meanwhile.
    have hhandle : l.Does limits g g' (l.handled p 0 (.finished result)) :=
      does_handle phase_eq handling_eq (.answered (.plain _)) hleads
    exact .after hhandle (canEnd_of_idle rfl rfl)

/-- **Nobody is stuck.** Wherever a connection stands, it can come to its end. -/
theorem canEnd (limits : HubConfig) (g : Gateway) (l : Link) : l.CanEnd limits g := by
  cases phase_eq : l.phase with
  | registering rest =>
    obtain ⟨g', result, hleads⟩ := exists_leads_done (rest.next (g.step rest.request).1)
      (g.step rest.request).2
    have henter : l.Does limits g g' (l.entered limits 0 (.finished result)) :=
      does_enter phase_eq (.answered (.plain _)) hleads
    -- Whoever is turned away is at the end; whoever is let in reads and writes first.
    cases result with
    | false => exact ⟨g', _, henter, rfl⟩
    | true => exact .after henter (canEnd_of_serving rfl)
  | serving p => exact canEnd_of_serving phase_eq
  | leaving rest =>
    obtain ⟨g', result, hleads⟩ := exists_leads_done (rest.next (g.step rest.request).1)
      (g.step rest.request).2
    have hexit : l.Does limits g g' (l.left (.finished result)) :=
      does_exit phase_eq (.answered (.plain _)) hleads
    exact ⟨g', _, hexit, rfl⟩
  | _ => exact ⟨g, l, .refl g l, phase_eq⟩

end Link

/-- A client connects, and its session is registered as far as that goes. -/
theorem Concourse.reaches_connect {userId : String} {progress : Progress Bool} {now : Nat}
    (made : c.gateway.newSession userId limits.queueCapacity = (l.session, g))
    (fresh : c.Fresh l.session.id)
    (leads : Leads g (register l.session) g' progress.rest) : ∃ strays',
      Reaches limits c
        { c with
          gateway := g'
          links := c.links ++ [l.entered limits now progress]
          strays := strays' } := by
  generalize hr : register l.session = r at leads
  generalize hr' : progress.rest = r' at leads
  cases leads with
  | refl => exact ⟨c.strays, (Step.connect made fresh (hr'.trans hr.symm)).reaches⟩
  | @call _ g₁ _ request next reply _ replies leads =>
    subst hr'
    have hbegun : Step limits c (.connect l.session)
        { c with
          gateway := g
          links := c.links ++ [l.entered limits now (.paused ⟨request, none, 0, next⟩)] } :=
      .connect made fresh hr.symm
    have hentered : (l.entered limits now (.paused ⟨request, none, 0, next⟩)).entered limits now
        progress = l.entered limits now progress := by
      cases progress with
      | finished result => cases result <;> rfl
      | paused => rfl
    have hdoes : (l.entered limits now (.paused ⟨request, none, 0, next⟩)).Does limits g g'
        ((l.entered limits now (.paused ⟨request, none, 0, next⟩)).entered limits now progress) :=
      Link.does_enter rfl replies leads
    rw [hentered] at hdoes
    obtain ⟨strays', hmore⟩ := hdoes c.links [] c.strays c.tasks
    exact ⟨strays', hbegun.reaches.trans hmore⟩

end RoomRelay
