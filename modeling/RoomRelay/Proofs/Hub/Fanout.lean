import RoomRelay.Proofs.Hub.Act
import RoomRelay.Proofs.Session.Mailbox

/-!
# What an act does to one session

An act on the hub treats a session in one of a few ways: it leaves the session alone, it tears it
down, or it offers it a frame. This file says which. In particular a broadcast, which goes through
the members of a room in any order and may tear some of them down on the way, offers its frame to
each of them exactly once, as if it were the only one.

## Main definitions

* `Hub.Kept`, `Hub.TornDown`, `Hub.Offered` — what became of one session between two states
* `Envelope.Addresses` — a broadcast is meant for a session

## Main results

* `Hub.offered_of_addresses`, `Hub.kept_of_not_addresses` — a broadcast, seen by one session
* `Hub.Step.kept_or_tornDown` — every other act of the hub, seen by one session
-/

namespace RoomRelay

namespace Hub

variable {hub hub' hub'' : Hub} {id other : SessionId} {session : Session} {frame : Frame}
variable {envelope : Envelope}

/-! ### Queues after a change -/

@[simp] theorem mailbox_setMailbox {m : Mailbox} :
    (hub.setMailbox other m).mailbox id = if other = id then m else hub.mailbox id := by
  unfold setMailbox mailbox
  rw [Table.get?_insert]
  split <;> rfl

@[simp] theorem mailbox_close :
    (hub.close other).2.mailbox id =
      if other = id then (hub.mailbox id).close.1 else hub.mailbox id := by
  unfold close
  rw [mailbox_setMailbox]
  split
  · rename_i h
    rw [h]
  · rfl

/-! ### One session between two states -/

/-- The session is registered as before, and its queue is as before. -/
structure Kept (id : SessionId) (hub hub' : Hub) : Prop where
  contains_eq : hub'.registry.contains id = hub.registry.contains id
  mailbox_eq : hub'.mailbox id = hub.mailbox id

/-- The session was registered and is no more, and its queue has been closed. -/
structure TornDown (id : SessionId) (hub hub' : Hub) : Prop where
  registered : hub.registry.contains id = true
  gone : hub'.registry.contains id = false
  mailbox_eq : hub'.mailbox id = (hub.mailbox id).close.1

/-- The session was offered a frame: its queue took it, or was full, whereupon the session was torn
down, or was closed already. -/
inductive Offered (id : SessionId) (frame : Frame) (hub hub' : Hub) : Prop
  | delivered (open_ : (hub.mailbox id).fault? = none)
    (contains_eq : hub'.registry.contains id = hub.registry.contains id)
    (mailbox_eq : hub'.mailbox id =
      { hub.mailbox id with queue := (hub.mailbox id).queue ++ [frame] })
  | overflowed (full : (hub.mailbox id).fault? = some .full) (torn : TornDown id hub hub')
  | unreachable (closed : (hub.mailbox id).fault? = some .closed) (kept : Kept id hub hub')

theorem Kept.refl (id : SessionId) (hub : Hub) : Kept id hub hub := ⟨rfl, rfl⟩

theorem Kept.trans (h : Kept id hub hub') (h' : Kept id hub' hub'') : Kept id hub hub'' :=
  ⟨h'.contains_eq.trans h.contains_eq, h'.mailbox_eq.trans h.mailbox_eq⟩

theorem TornDown.trans_kept (h : TornDown id hub hub') (h' : Kept id hub' hub'') :
    TornDown id hub hub'' :=
  ⟨h.registered, h'.contains_eq.trans h.gone, h'.mailbox_eq.trans h.mailbox_eq⟩

theorem Kept.trans_tornDown (h : Kept id hub hub') (h' : TornDown id hub' hub'') :
    TornDown id hub hub'' :=
  ⟨h.contains_eq.symm.trans h'.registered, h'.gone, by rw [h'.mailbox_eq, h.mailbox_eq]⟩

theorem Offered.trans_kept (h : Offered id frame hub hub') (h' : Kept id hub' hub'') :
    Offered id frame hub hub'' := by
  cases h with
  | delivered hf hc hm => exact .delivered hf (h'.contains_eq.trans hc) (h'.mailbox_eq.trans hm)
  | overflowed hf ht => exact .overflowed hf (ht.trans_kept h')
  | unreachable hf hk => exact .unreachable hf (hk.trans h')

theorem Kept.trans_offered (h : Kept id hub hub') (h' : Offered id frame hub' hub'') :
    Offered id frame hub hub'' := by
  cases h' with
  | delivered hf hc hm =>
    rw [h.mailbox_eq] at hf hm
    exact .delivered hf (hc.trans h.contains_eq) hm
  | overflowed hf ht =>
    rw [h.mailbox_eq] at hf
    exact .overflowed hf (h.trans_tornDown ht)
  | unreachable hf hk =>
    rw [h.mailbox_eq] at hf
    exact .unreachable hf (h.trans hk)

/-! ### Taking a session out -/

theorem mailbox_of_remove (h : hub.remove other = some hub') :
    hub'.mailbox id = if other = id then (hub.mailbox id).close.1 else hub.mailbox id := by
  obtain ⟨⟨found, r⟩, -, rfl⟩ := Option.map_eq_some_iff.mp h
  exact mailbox_close

/-- Taking a session out tears it down. -/
theorem tornDown_of_remove (h : hub.remove id = some hub') : TornDown id hub hub' := by
  obtain ⟨found, hr⟩ := removed_of_remove h
  refine ⟨Registry.contains_iff.mpr ⟨found, hr.registered⟩, ?_, ?_⟩
  · rw [← Bool.not_eq_true, hr.contains_iff]
    simp
  · rw [mailbox_of_remove h, if_pos rfl]

/-- Taking a session out leaves every other one alone. -/
theorem kept_of_remove (h : hub.remove other = some hub') (hne : other ≠ id) :
    Kept id hub hub' := by
  obtain ⟨found, hr⟩ := removed_of_remove h
  refine ⟨?_, ?_⟩
  · rw [Bool.eq_iff_iff, hr.contains_iff]
    simp [Ne.symm hne]
  · rw [mailbox_of_remove h, if_neg hne]

theorem kept_or_tornDown_of_remove (id : SessionId) (h : hub.remove other = some hub') :
    Kept id hub hub' ∨ TornDown id hub hub' := by
  by_cases hid : other = id
  · subst hid
    exact Or.inr (tornDown_of_remove h)
  · exact Or.inl (kept_of_remove h hid)

/-! ### Broadcasts -/

/-- A frame offered to one session leaves every other one alone. -/
theorem kept_offer {report : BroadcastReport} (hne : session.id ≠ id) :
    Kept id hub (offer frame (report, hub) session).2 := by
  unfold offer enqueue
  cases hf : (hub.mailbox session.id).fault? with
  | none =>
    rw [Mailbox.enqueue_of_fault?_eq_none hf]
    exact ⟨rfl, by simp [Functor.map, Except.map, hne]⟩
  | some fault =>
    rw [Mailbox.enqueue_of_fault?_eq_some hf]
    cases fault with
    | closed => exact Kept.refl id hub
    | full =>
      cases hr : hub.remove session.id with
      | none => simpa [Functor.map, Except.map, hr] using Kept.refl id hub
      | some rest => simpa [Functor.map, Except.map, hr] using kept_of_remove hr hne

/-- A registered session is offered a frame. -/
theorem offered_offer {report : BroadcastReport} (h : hub.registry.contains session.id = true) :
    Offered session.id frame hub (offer frame (report, hub) session).2 := by
  unfold offer enqueue
  cases hf : (hub.mailbox session.id).fault? with
  | none =>
    rw [Mailbox.enqueue_of_fault?_eq_none hf]
    exact .delivered hf rfl (by simp [Functor.map, Except.map])
  | some fault =>
    rw [Mailbox.enqueue_of_fault?_eq_some hf]
    cases fault with
    | closed => exact .unreachable hf (Kept.refl session.id hub)
    | full =>
      -- Only here it matters that the session is registered: else nothing would be torn down.
      cases hr : hub.remove session.id with
      | none => exact absurd (h.symm.trans (remove_eq_none_iff.mp hr)) (by simp)
      | some rest =>
        refine .overflowed hf ?_
        simpa [Functor.map, Except.map, hr] using tornDown_of_remove hr

theorem kept_foldl_offer {members : List Session} {report : BroadcastReport}
    (hid : id ∉ members.map (·.id)) :
    Kept id hub (members.foldl (offer frame) (report, hub)).2 := by
  -- The hub changes from member to member, so the induction is for all of them.
  induction members generalizing hub report with
  | nil => exact Kept.refl id hub
  | cons first rest ih =>
    rw [List.map_cons, List.mem_cons, not_or] at hid
    exact (kept_offer (Ne.symm hid.1)).trans (ih hid.2)

theorem offered_foldl_offer {members : List Session} {report : BroadcastReport}
    (hnodup : (members.map (·.id)).Nodup) (hid : id ∈ members.map (·.id))
    (h : hub.registry.contains id = true) :
    Offered id frame hub (members.foldl (offer frame) (report, hub)).2 := by
  induction members generalizing hub report with
  | nil => simp at hid
  | cons first rest ih =>
    rw [List.map_cons, List.nodup_cons] at hnodup
    by_cases hfirst : first.id = id
    · -- Its turn has come, and it does not come again.
      subst hfirst
      exact (offered_offer h).trans_kept (kept_foldl_offer hnodup.1)
    · -- Whatever happens to those before it, it stays registered until its turn.
      have hrest : id ∈ rest.map (·.id) :=
        (List.mem_cons.mp hid).resolve_left (Ne.symm hfirst)
      have hkept : Kept id hub (offer frame (report, hub) first).2 := kept_offer hfirst
      exact hkept.trans_offered (ih hnodup.2 hrest (hkept.contains_eq.trans h))

end Hub

/-- A broadcast is meant for a session: it is a member of the room and not left out. -/
def Envelope.Addresses (envelope : Envelope) (hub : Hub) (id : SessionId) : Prop :=
  id ∈ hub.registry.memberIds envelope.roomId ∧ envelope.exclude ≠ some id

instance (envelope : Envelope) (hub : Hub) (id : SessionId) :
    Decidable (envelope.Addresses hub id) :=
  inferInstanceAs (Decidable (_ ∧ _))

namespace Hub

variable {hub hub' : Hub} {id : SessionId} {session : Session} {envelope : Envelope}
variable {order : List Session}

/-- The members of a room are all registered, so that their identifiers are those the room has. -/
theorem map_id_members {r : Registry} (h : r.Indexed) (roomId : String) :
    (r.members roomId).map (·.id) = r.memberIds roomId := by
  have hall : ∀ id ∈ r.memberIds roomId, r.contains id = true := fun id hid =>
    h.contains_of_isMember (Registry.mem_memberIds.mp hid)
  unfold Registry.members
  -- A member that is not registered would be left out, and the rest would move up.
  generalize r.memberIds roomId = ids at hall
  induction ids with
  | nil => rfl
  | cons id ids ih =>
    obtain ⟨session, hs⟩ := Registry.contains_iff.mp (hall id List.mem_cons_self)
    rw [List.filterMap_cons_some hs, List.map_cons, h.session_id hs,
      ih fun k hk => hall k (List.mem_cons_of_mem _ hk)]

/-- The identifiers that a broadcast goes through, once each. -/
theorem mem_receivers (h : hub.registry.Indexed)
    (perm : order.Perm (hub.registry.members envelope.roomId)) :
    id ∈ (order.filter (some ·.id ≠ envelope.exclude)).map (·.id) ↔
      envelope.Addresses hub id := by
  unfold Envelope.Addresses
  rw [← map_id_members h, List.mem_map, List.mem_map]
  constructor
  · rintro ⟨s, hs, rfl⟩
    rw [List.mem_filter, decide_eq_true_eq] at hs
    exact ⟨⟨s, perm.mem_iff.mp hs.1, rfl⟩, Ne.symm hs.2⟩
  · rintro ⟨⟨s, hs, rfl⟩, hne⟩
    exact ⟨s, List.mem_filter.mpr ⟨perm.mem_iff.mpr hs, decide_eq_true (Ne.symm hne)⟩, rfl⟩

theorem nodup_receivers (h : hub.registry.Indexed)
    (perm : order.Perm (hub.registry.members envelope.roomId)) :
    ((order.filter (some ·.id ≠ envelope.exclude)).map (·.id)).Nodup := by
  refine (List.filter_sublist.map _).nodup ?_
  rw [(perm.map _).nodup_iff, map_id_members h]
  exact FinSet.nodup _

/-- A broadcast offers its frame to each session that it is meant for, whatever the order. -/
theorem offered_of_addresses (h : hub.registry.Indexed)
    (perm : order.Perm (hub.registry.members envelope.roomId))
    (haddr : envelope.Addresses hub id) :
    Offered id envelope.frame hub (hub.broadcastTo order envelope).2 :=
  offered_foldl_offer (nodup_receivers h perm) ((mem_receivers h perm).mpr haddr)
    (h.contains_of_isMember (Registry.mem_memberIds.mp haddr.1))

/-- A broadcast leaves every session alone that it is not meant for. -/
theorem kept_of_not_addresses (h : hub.registry.Indexed)
    (perm : order.Perm (hub.registry.members envelope.roomId))
    (haddr : ¬ envelope.Addresses hub id) :
    Kept id hub (hub.broadcastTo order envelope).2 :=
  kept_foldl_offer fun hid => haddr ((mem_receivers h perm).mp hid)

/-! ### All other acts -/

/-- A closed hub closes the session; an open one takes the rival out, if it is registered, and then
enters the session. -/
theorem enroll_cases (session : Session) (h : hub.registry.Indexed) :
    (hub.registry.closed = true ∧ (hub.enroll session).2 = (hub.close session.id).2) ∨
    (∃ rival rest, rival ≠ session.id ∧ hub.remove rival = some rest ∧
      (hub.enroll session).2 = { rest with registry := rest.registry.enter session }) ∨
    (hub.enroll session).2 = { hub with registry := hub.registry.enter session } := by
  unfold enroll
  split
  · rename_i hc
    exact Or.inl ⟨hc, rfl⟩
  · rcases Registry.insert_cases hub.registry session with
      ⟨rival, evicted, rest, hrival, hm, he⟩ | ⟨-, he⟩
    · -- The queue that is closed is that of the rival, as it has the identifier it stands under.
      have hid : evicted.id = rival := h.session_id (Registry.removed_of_remove hm).registered
      refine Or.inr (Or.inl ⟨rival, ({ hub with registry := rest }.close rival).2,
        (Registry.rival?_eq_some_iff.mp hrival).2, ?_, ?_⟩)
      · simp [remove, hm]
      · simp only [he, hid]
        rfl
    · exact Or.inr (Or.inr (by simp only [he]))

theorem kept_enter (hne : session.id ≠ id) :
    Kept id hub { hub with registry := hub.registry.enter session } :=
  ⟨by simp [Registry.contains, Table.contains, hne], rfl⟩

/-- What registering a session does to another one: nothing, unless it is the one evicted. -/
theorem kept_or_tornDown_enroll (h : hub.registry.Indexed) (hne : session.id ≠ id) :
    Kept id hub (hub.enroll session).2 ∨ TornDown id hub (hub.enroll session).2 := by
  rcases enroll_cases session h with ⟨-, he⟩ | ⟨rival, rest, -, hr, he⟩ | he
  · rw [he]
    exact Or.inl ⟨rfl, by rw [mailbox_close, if_neg hne]⟩
  · rw [he]
    rcases kept_or_tornDown_of_remove id hr with hk | ht
    · exact Or.inl (hk.trans (kept_enter hne))
    · exact Or.inr (ht.trans_kept (kept_enter hne))
  · rw [he]
    exact Or.inl (kept_enter hne)

/-- A session that wants to be registered is closed if the hub is, and else is registered with its
queue as it was. -/
theorem enroll_self (session : Session) (h : hub.registry.Indexed) :
    ((hub.enroll session).2.registry = hub.registry ∧ hub.registry.closed = true ∧
      (hub.enroll session).2.mailbox session.id = (hub.mailbox session.id).close.1) ∨
    ((hub.enroll session).2.registry.contains session.id = true ∧
      (hub.enroll session).2.mailbox session.id = hub.mailbox session.id) := by
  have hcontains : ∀ r : Registry, (r.enter session).contains session.id = true := by
    intro r
    simp [Registry.contains, Table.contains]
  rcases enroll_cases session h with ⟨hc, he⟩ | ⟨rival, rest, hne, hr, he⟩ | he
  · rw [he]
    exact Or.inl ⟨rfl, hc, by rw [mailbox_close, if_pos rfl]⟩
  · rw [he]
    exact Or.inr ⟨hcontains _, (kept_of_remove hr hne).mailbox_eq⟩
  · rw [he]
    exact Or.inr ⟨hcontains _, rfl⟩

theorem mailbox_foldl_close {sessions : List Session} :
    (sessions.foldl (fun h s => (h.close s.id).2) hub).mailbox id =
      if id ∈ sessions.map (·.id) then (hub.mailbox id).close.1 else hub.mailbox id := by
  induction sessions generalizing hub with
  | nil => simp
  | cons first rest ih =>
    rw [List.foldl_cons, ih, mailbox_close]
    by_cases hid : first.id = id
    · simp [hid]
    · simp [hid, Ne.symm hid]

/-- Closing the hub tears everyone down who is registered. -/
theorem kept_or_tornDown_drain (h : hub.registry.Indexed) :
    Kept id hub hub.drain.2 ∨ TornDown id hub hub.drain.2 := by
  -- The sessions that are closed are those that are registered.
  have hmem : id ∈ hub.registry.drain.1.map (·.id) ↔ hub.registry.contains id = true := by
    rw [Registry.contains_iff, List.mem_map]
    constructor
    · rintro ⟨s, hs, rfl⟩
      obtain ⟨⟨k, v⟩, he, rfl⟩ := List.mem_map.mp hs
      have hk := Table.get?_eq_some_iff.mpr he
      exact ⟨v, by rw [h.session_id hk]; exact hk⟩
    · rintro ⟨s, hs⟩
      exact ⟨s, List.mem_map.mpr ⟨(id, s), Table.get?_eq_some_iff.mp hs, rfl⟩, h.session_id hs⟩
  have hmail : hub.drain.2.mailbox id =
      if id ∈ hub.registry.drain.1.map (·.id) then (hub.mailbox id).close.1 else hub.mailbox id :=
    mailbox_foldl_close
  have hgone : hub.drain.2.registry.contains id = false := by
    rw [registry_drain]
    rfl
  rw [if_congr hmem rfl rfl] at hmail
  by_cases hc : hub.registry.contains id = true
  · rw [if_pos hc] at hmail
    exact Or.inr ⟨hc, hgone, hmail⟩
  · rw [if_neg hc] at hmail
    exact Or.inl ⟨hgone.trans (Bool.eq_false_iff.mpr hc).symm, hmail⟩

/-- The acts that may do something to a session other than tearing it down. -/
def Act.Concerns (id : SessionId) : Act → Prop
  | enroll session => session.id = id
  | broadcast _ => True
  | take other _ | handle other => other = id
  | withdraw _ | join _ _ | leave _ _ | drain => False

/-- Any other act leaves a session alone or tears it down. -/
theorem Step.kept_or_tornDown {act : Act} (step : Step hub act hub') (h : hub.registry.Indexed)
    (hact : ¬ act.Concerns id) : Kept id hub hub' ∨ TornDown id hub hub' := by
  cases step with
  | enroll => exact kept_or_tornDown_enroll h hact
  | @withdraw session =>
    rcases withdraw_cases hub session with ⟨-, he⟩ | hr
    · rw [he]
      exact Or.inl (Kept.refl id hub)
    · exact kept_or_tornDown_of_remove id hr
  | join => exact Or.inl ⟨congrArg (Table.contains · id) Registry.sessions_join, rfl⟩
  | leave => exact Or.inl ⟨congrArg (Table.contains · id) Registry.sessions_leave, rfl⟩
  | broadcast => exact absurd trivial hact
  | drain => exact kept_or_tornDown_drain h
  | take => exact Or.inl ⟨rfl, mailbox_setMailbox.trans (if_neg hact)⟩
  | handle => exact Or.inl ⟨rfl, mailbox_setMailbox.trans (if_neg hact)⟩

end Hub

end RoomRelay
