import RoomRelay.Proofs.Hub.Standing
import RoomRelay.Proofs.Registry.Sameness

/-!
# What a broadcast does to the whole hub

A broadcast goes through the members of its room one after the other, in an order of which nothing
is known, and takes out of the registry on its way whoever has a full queue. Seen as a whole it
gives the frame to all whose queues have a place, takes out all whose queues are full, and does
nothing else; and the report counts them. None of this mentions the order.

## Main definitions

* `Envelope.Reaches`, `Envelope.Overruns`, `Envelope.Misses` — what becomes of a member
* `Registry.Thinned` — a registry from which some sessions have been taken out
* `Hub.Dispatched` — what a broadcast does to the hub, and what it reports

## Main results

* `Hub.thinned_broadcastTo` — who is taken out
* `Hub.mailbox_broadcastTo` — the queues afterwards
* `Hub.report_broadcastTo` — the report
* `Hub.broadcast_in_any_order` — all of it, and that the order does not matter
-/

namespace RoomRelay

/-! ### What becomes of a member -/

namespace Envelope

variable {envelope : Envelope} {hub : Hub} {id : SessionId}

/-- A member that is not left out and whose queue has a place. -/
def Reaches (envelope : Envelope) (hub : Hub) (id : SessionId) : Prop :=
  envelope.Addresses hub id ∧ (hub.mailbox id).HasPlace

/-- A member that is not left out and whose queue is full. -/
def Overruns (envelope : Envelope) (hub : Hub) (id : SessionId) : Prop :=
  envelope.Addresses hub id ∧ (hub.mailbox id).IsFull

/-- A member that is not left out and one end of whose queue is gone. -/
def Misses (envelope : Envelope) (hub : Hub) (id : SessionId) : Prop :=
  envelope.Addresses hub id ∧ (hub.mailbox id).IsCut

instance (envelope : Envelope) (hub : Hub) : DecidablePred (envelope.Reaches hub) :=
  fun _ => inferInstanceAs (Decidable (_ ∧ _))

instance (envelope : Envelope) (hub : Hub) : DecidablePred (envelope.Overruns hub) :=
  fun _ => inferInstanceAs (Decidable (_ ∧ _))

instance (envelope : Envelope) (hub : Hub) : DecidablePred (envelope.Misses hub) :=
  fun _ => inferInstanceAs (Decidable (_ ∧ _))

end Envelope

/-! ### Who is taken out -/

namespace Registry

variable {r r' r'' : Registry} {id : SessionId} {session : Session}

/-- The second registry is the first one with some sessions taken out of all four tables, and with
everything else as it was. -/
structure Thinned (r : Registry) (gone : SessionId → Prop) [DecidablePred gone] (r' : Registry) :
    Prop where
  get?_sessions : ∀ id, r'.sessions.get? id = if gone id then none else r.sessions.get? id
  get?_byUser : ∀ userId,
    r'.byUser.get? userId = (r.byUser.get? userId).filter fun id => ¬ gone id
  get?_joined : ∀ id, r'.joined.get? id = if gone id then none else r.joined.get? id
  holds_rooms : ∀ room id, r'.rooms.Holds room id ↔ r.rooms.Holds room id ∧ ¬ gone id
  noEmpty_rooms : r'.rooms.NoEmpty
  closed_eq : r'.closed = r.closed

/-- Nothing has been added to the first registry, and whoever is still registered is so as
before. -/
structure Remains (r r' : Registry) : Prop where
  get?_sessions : ∀ {id}, r'.contains id = true → r'.sessions.get? id = r.sessions.get? id
  get?_joined : ∀ {id}, r'.contains id = true → r'.joined.get? id = r.joined.get? id
  isMember_iff : ∀ {id room}, r'.contains id = true → (r'.IsMember id room ↔ r.IsMember id room)
  closed_eq : r'.closed = r.closed

theorem Remains.refl (r : Registry) : Remains r r :=
  ⟨fun _ => rfl, fun _ => rfl, fun _ => Iff.rfl, rfl⟩

/-- Taking a session out leaves the others as they were. -/
theorem Remains.removed (h : Remains r r') (hr : Removed r' id session r'') : Remains r r'' where
  get?_sessions := by
    intro other hc
    obtain ⟨hne, hbefore⟩ := hr.contains_iff.mp hc
    rw [hr.get?_sessions, if_neg (Ne.symm hne), h.get?_sessions hbefore]
  get?_joined := by
    intro other hc
    obtain ⟨hne, hbefore⟩ := hr.contains_iff.mp hc
    rw [hr.get?_joined, if_neg (Ne.symm hne), h.get?_joined hbefore]
  isMember_iff := by
    intro other room hc
    obtain ⟨hne, hbefore⟩ := hr.contains_iff.mp hc
    rw [hr.isMember_iff, h.isMember_iff hbefore]
    simp [hne]
  closed_eq := hr.closed_eq.trans h.closed_eq

/-- If the tables agree, all is known about a registry from which sessions have been taken out once
it is known who these are. -/
theorem Remains.thinned {gone : SessionId → Prop} [DecidablePred gone] (h : Remains r r')
    (hr : r.Coherent) (hr' : r'.Coherent)
    (contains_iff : ∀ id, r'.contains id = true ↔ r.contains id = true ∧ ¬ gone id) :
    Thinned r gone r' := by
  -- Whoever is not registered afterwards is in no table, and if it is not gone it never was.
  have hcases : ∀ id, (r'.contains id = true ∧ ¬ gone id) ∨
      (r'.Absent id ∧ (gone id ∨ r.Absent id)) := by
    intro id
    by_cases hc : r'.contains id = true
    · exact Or.inl ⟨hc, ((contains_iff id).mp hc).2⟩
    · refine Or.inr ⟨hr'.absent (Bool.eq_false_iff.mpr hc), ?_⟩
      by_cases hgone : gone id
      · exact Or.inl hgone
      · refine Or.inr (hr.absent (Bool.eq_false_iff.mpr fun hold => ?_))
        exact hc ((contains_iff id).mpr ⟨hold, hgone⟩)
  have hsessions : ∀ id, r'.sessions.get? id = if gone id then none else r.sessions.get? id := by
    intro id
    rcases hcases id with ⟨hc, hkept⟩ | ⟨habsent, hgone⟩
    · rw [if_neg hkept, h.get?_sessions hc]
    · rw [habsent.sessions]
      split
      · rfl
      · rename_i hkept
        exact (hgone.resolve_left hkept).sessions.symm
  refine ⟨hsessions, ?_, ?_, ?_, hr'.rooms_noEmpty, h.closed_eq⟩
  · -- An identity is current with whoever of it is registered.
    intro userId
    rw [Option.ext_iff]
    intro id
    refine hr'.current_iff.trans ?_
    rw [Option.filter_eq_some_iff, hsessions]
    change _ ↔ r.current userId = some id ∧ _
    rw [hr.current_iff]
    by_cases hgone : gone id <;> simp [hgone]
  · intro id
    rcases hcases id with ⟨hc, hkept⟩ | ⟨habsent, hgone⟩
    · rw [if_neg hkept, h.get?_joined hc]
    · rw [habsent.joined]
      split
      · rfl
      · rename_i hkept
        exact (hgone.resolve_left hkept).joined.symm
  · intro room id
    rcases hcases id with ⟨hc, hkept⟩ | ⟨habsent, hgone⟩
    · exact (h.isMember_iff hc).trans (and_iff_left hkept).symm
    · refine iff_of_false (habsent.rooms room) ?_
      rintro ⟨hmember, hkept⟩
      exact (hgone.resolve_left hkept).rooms room hmember

/-- Who is taken out decides about the tables. -/
theorem Thinned.same {gone : SessionId → Prop} [DecidablePred gone] (h : Thinned r gone r')
    (h' : Thinned r gone r'') (hr' : r'.Indexed) (hr'' : r''.Indexed) : r'.Same r'' := by
  refine hr'.same hr'' ?_ ?_ ?_ (h.closed_eq.trans h'.closed_eq.symm)
  · intro userId
    exact (h.get?_byUser userId).trans (h'.get?_byUser userId).symm
  · intro id
    rw [h.get?_sessions, h'.get?_sessions]
  · intro id room
    exact (h.holds_rooms room id).trans (h'.holds_rooms room id).symm

end Registry

namespace Hub

variable {hub : Hub} {envelope : Envelope} {order : List Session} {id : SessionId}

/-- A broadcast takes out whoever it overruns. -/
theorem thinned_broadcastTo (h : hub.registry.Coherent)
    (perm : order.Perm (hub.registry.members envelope.roomId)) :
    hub.registry.Thinned (envelope.Overruns hub) (hub.broadcastTo order envelope).2.registry := by
  have hafter : (hub.broadcastTo order envelope).2.registry.Coherent :=
    (Step.broadcast perm).coherent h (by simp)
  have hremains : hub.registry.Remains (hub.broadcastTo order envelope).2.registry :=
    registry_broadcastTo (fun hr hp => hp.removed hr) (.refl _)
  refine hremains.thinned h hafter fun id => ?_
  unfold Envelope.Overruns
  by_cases haddr : envelope.Addresses hub id
  · have hin := h.contains_of_isMember (Registry.mem_memberIds.mp haddr.1)
    cases offered_of_addresses h.toIndexed perm haddr with
    | delivered hfault hcontains _ =>
      rw [← Mailbox.fault?_eq_full_iff, hfault, hcontains]
      simp
    | overflowed hfault htorn =>
      rw [← Mailbox.fault?_eq_full_iff, hfault, htorn.gone]
      simp [haddr]
    | unreachable hfault hkept =>
      rw [← Mailbox.fault?_eq_full_iff, hfault, hkept.contains_eq]
      simp
  · rw [(kept_of_not_addresses h.toIndexed perm haddr).contains_eq]
    simp [haddr]

/-- A broadcast puts the frame into the queues of those it reaches, and closes the queues of those
it overruns. -/
theorem mailbox_broadcastTo (h : hub.registry.Indexed)
    (perm : order.Perm (hub.registry.members envelope.roomId)) :
    (hub.broadcastTo order envelope).2.mailbox id =
      if envelope.Reaches hub id then
        { hub.mailbox id with queue := (hub.mailbox id).queue ++ [envelope.frame] }
      else if envelope.Overruns hub id then (hub.mailbox id).close.1
      else hub.mailbox id := by
  by_cases haddr : envelope.Addresses hub id
  · cases offered_of_addresses h perm haddr with
    | delivered hfault _ hmailbox =>
      rw [if_pos ⟨haddr, Mailbox.fault?_eq_none_iff.mp hfault⟩, hmailbox]
    | overflowed hfault htorn =>
      have hfull := Mailbox.fault?_eq_full_iff.mp hfault
      rw [if_neg fun hr => hfull.not_hasPlace hr.2, if_pos ⟨haddr, hfull⟩, htorn.mailbox_eq]
    | unreachable hfault hkept =>
      have hcut := Mailbox.fault?_eq_closed_iff.mp hfault
      rw [if_neg fun hr => hcut.not_hasPlace hr.2, if_neg fun ho => hcut.not_isFull ho.2,
        hkept.mailbox_eq]
  · rw [if_neg fun hr => haddr hr.1, if_neg fun ho => haddr ho.1,
      (kept_of_not_addresses h perm haddr).mailbox_eq]

end Hub

/-! ### The report -/

namespace BroadcastReport

/-- The report with one member more, by what is wrong with its queue. -/
def note (report : BroadcastReport) : Option EnqueueFault → BroadcastReport
  | none => { report with delivered := report.delivered + 1 }
  | some .full => { report with overflowed := report.overflowed + 1 }
  | some .closed => { report with unreachable := report.unreachable + 1 }

/-- A report counts the members of each kind. -/
theorem foldl_note (faults : List (Option EnqueueFault)) (report : BroadcastReport) :
    faults.foldl note report =
      ⟨report.delivered + faults.count none, report.overflowed + faults.count (some .full),
        report.unreachable + faults.count (some .closed)⟩ := by
  induction faults generalizing report with
  | nil => rfl
  | cons fault faults ih =>
    rw [List.foldl_cons, ih]
    rcases fault with _ | fault
    · simp [note, Nat.add_assoc, Nat.add_comm]
    · cases fault <;> simp [note, Nat.add_assoc, Nat.add_comm]

/-- Every member is of one kind. -/
theorem count_add_count (faults : List (Option EnqueueFault)) :
    faults.count none + (faults.count (some .full) + faults.count (some .closed)) =
      faults.length := by
  induction faults with
  | nil => rfl
  | cons fault faults ih =>
    rcases fault with _ | fault
    · simp
      omega
    · cases fault <;> simp <;> omega

end BroadcastReport

namespace Hub

variable {hub : Hub} {envelope : Envelope} {order : List Session} {frame : Frame}

theorem report_offer (report : BroadcastReport) (hub : Hub) (session : Session) :
    (offer frame (report, hub) session).1 = report.note (hub.mailbox session.id).fault? := by
  unfold offer enqueue
  cases hf : (hub.mailbox session.id).fault? with
  | none =>
    rw [Mailbox.enqueue_of_fault?_eq_none hf]
    rfl
  | some fault =>
    rw [Mailbox.enqueue_of_fault?_eq_some hf]
    cases fault <;> rfl

/-- What is wrong with the queue of a member when its turn comes was wrong with it from the
beginning. -/
theorem report_foldl_offer {members : List Session} (hnodup : (members.map (·.id)).Nodup)
    (report : BroadcastReport) (hub : Hub) :
    (members.foldl (offer frame) (report, hub)).1 =
      (members.map fun s => (hub.mailbox s.id).fault?).foldl BroadcastReport.note report := by
  induction members generalizing report hub with
  | nil => rfl
  | cons first rest ih =>
    rw [List.map_cons, List.nodup_cons] at hnodup
    have hkept : (rest.map fun s => ((offer frame (report, hub) first).2.mailbox s.id).fault?) =
        rest.map fun s => (hub.mailbox s.id).fault? := by
      refine List.map_inj_left.mpr fun s hs => ?_
      have hne : first.id ≠ s.id := fun heq => hnodup.1 (heq ▸ List.mem_map_of_mem hs)
      rw [(kept_offer hne).mailbox_eq]
    rw [List.foldl_cons, ih hnodup.2, hkept, report_offer, List.map_cons, List.foldl_cons]

/-- The members that a broadcast goes through, in whatever order: all but the one left out. -/
theorem receivers_perm (h : hub.registry.Indexed)
    (perm : order.Perm (hub.registry.members envelope.roomId)) :
    ((order.filter (some ·.id ≠ envelope.exclude)).map (·.id)).Perm
      ((hub.registry.memberIds envelope.roomId).filter (some · ≠ envelope.exclude)) := by
  rw [← map_id_members h, List.filter_map]
  exact (perm.filter _).map _

/-- What is wrong with the queues of those members. -/
def faults (hub : Hub) (envelope : Envelope) : List (Option EnqueueFault) :=
  ((hub.registry.memberIds envelope.roomId).filter (some · ≠ envelope.exclude)).map
    fun id => (hub.mailbox id).fault?

theorem count_faults (hub : Hub) (envelope : Envelope) (kind : Option EnqueueFault)
    (becomes : SessionId → Prop) [DecidablePred becomes]
    (h : ∀ id, becomes id ↔ envelope.Addresses hub id ∧ (hub.mailbox id).fault? = kind) :
    (hub.faults envelope).count kind =
      (hub.registry.memberIds envelope.roomId).countP fun id => becomes id := by
  unfold faults
  rw [List.count, List.countP_map, List.countP_filter]
  refine List.countP_congr fun id hid => ?_
  simp only [Function.comp_apply, Bool.and_eq_true, beq_iff_eq, decide_eq_true_eq, h,
    Envelope.Addresses]
  constructor
  · rintro ⟨hfault, hne⟩
    exact ⟨⟨hid, hne.symm⟩, hfault⟩
  · rintro ⟨⟨-, hne⟩, hfault⟩
    exact ⟨hfault, hne.symm⟩

/-- The report counts what is wrong with the queues, in whatever order. -/
theorem report_broadcastTo (h : hub.registry.Indexed)
    (perm : order.Perm (hub.registry.members envelope.roomId)) :
    (hub.broadcastTo order envelope).1 =
      ⟨(hub.faults envelope).count none, (hub.faults envelope).count (some .full),
        (hub.faults envelope).count (some .closed)⟩ := by
  have hperm : ((order.filter (some ·.id ≠ envelope.exclude)).map fun s =>
      (hub.mailbox s.id).fault?).Perm (hub.faults envelope) := by
    have hmap := (receivers_perm h perm).map fun id => (hub.mailbox id).fault?
    rwa [List.map_map] at hmap
  rw [broadcastTo, report_foldl_offer (nodup_receivers h perm), BroadcastReport.foldl_note,
    hperm.count_eq, hperm.count_eq, hperm.count_eq]
  simp only [Nat.zero_add]

/-- The members that a broadcast goes through are all but the one left out. -/
theorem length_faults (hub : Hub) (envelope : Envelope) :
    (hub.faults envelope).length +
      (if ∃ id ∈ hub.registry.memberIds envelope.roomId, envelope.exclude = some id then 1 else 0) =
      (hub.registry.memberIds envelope.roomId).length := by
  have hnodup : (hub.registry.memberIds envelope.roomId).Nodup := FinSet.nodup _
  unfold faults
  rw [List.length_map]
  generalize hub.registry.memberIds envelope.roomId = ids at hnodup
  cases envelope.exclude with
  | none => simp
  | some out =>
    have hsum := List.length_eq_countP_add_countP (l := ids) (some · ≠ some out)
    have hout : (ids.countP fun id => ¬ decide (some id ≠ some out) = true) = ids.count out :=
      List.countP_congr fun id _ => by simp
    rw [hsum, hout, List.countP_eq_length_filter, hnodup.count]
    simp

end Hub

/-! ### The whole broadcast -/

/-- What a broadcast does to the hub, and the report on it. -/
structure Hub.Dispatched (hub : Hub) (envelope : Envelope) (report : BroadcastReport)
    (after : Hub) : Prop where
  /-- Whoever is reached has the frame once more at the end of its queue, the queue of whoever is
  overrun is closed, and all other queues are as before. -/
  mailbox_eq : ∀ id, after.mailbox id =
    if envelope.Reaches hub id then
      { hub.mailbox id with queue := (hub.mailbox id).queue ++ [envelope.frame] }
    else if envelope.Overruns hub id then (hub.mailbox id).close.1
    else hub.mailbox id
  /-- Whoever is overrun is in none of the tables any more, and nothing else has changed in them. -/
  thinned : hub.registry.Thinned (envelope.Overruns hub) after.registry
  coherent : after.registry.Coherent
  delivered_eq : report.delivered =
    (hub.registry.memberIds envelope.roomId).countP fun id => envelope.Reaches hub id
  dropped_eq : report.dropped =
    ((hub.registry.memberIds envelope.roomId).countP fun id => envelope.Overruns hub id) +
      (hub.registry.memberIds envelope.roomId).countP fun id => envelope.Misses hub id
  /-- All members are counted but the one left out. -/
  total : report.delivered + report.dropped +
      (if ∃ id ∈ hub.registry.memberIds envelope.roomId, envelope.exclude = some id then 1 else 0) =
    (hub.registry.memberIds envelope.roomId).length

namespace Hub

variable {hub : Hub} {envelope : Envelope} {order : List Session}

theorem dispatched_broadcastTo (h : hub.registry.Coherent)
    (perm : order.Perm (hub.registry.members envelope.roomId)) :
    hub.Dispatched envelope (hub.broadcastTo order envelope).1
      (hub.broadcastTo order envelope).2 := by
  have hreport := report_broadcastTo h.toIndexed perm
  have hreached := count_faults hub envelope none (envelope.Reaches hub)
    fun id => and_congr_right fun _ => Mailbox.fault?_eq_none_iff.symm
  have hoverrun := count_faults hub envelope (some .full) (envelope.Overruns hub)
    fun id => and_congr_right fun _ => Mailbox.fault?_eq_full_iff.symm
  have hmissed := count_faults hub envelope (some .closed) (envelope.Misses hub)
    fun id => and_congr_right fun _ => Mailbox.fault?_eq_closed_iff.symm
  refine ⟨fun id => mailbox_broadcastTo h.toIndexed perm, thinned_broadcastTo h perm,
    (Step.broadcast perm).coherent h (by simp), ?_, ?_, ?_⟩
  · rw [hreport, hreached]
  · rw [hreport, BroadcastReport.dropped, hoverrun, hmissed]
  · rw [hreport, BroadcastReport.dropped, BroadcastReport.count_add_count, length_faults]

/-- What is said of a broadcast leaves nothing open but the order of entries in tables. -/
theorem Dispatched.same {report report' : BroadcastReport} {after after' : Hub}
    (h : hub.Dispatched envelope report after) (h' : hub.Dispatched envelope report' after') :
    after.Same after' where
  registry := h.thinned.same h'.thinned h.coherent.toIndexed h'.coherent.toIndexed
  mailbox id := (h.mailbox_eq id).trans (h'.mailbox_eq id).symm

/-- **One broadcast, any order.** Where the tables of the registry agree, a broadcast through the
members of its room, in whatever order, appends the frame to the queues that have a place, takes out
and closes the members whose queues are full, leaves everything else alone, and counts both; and in
any other order it has the same outcome. -/
theorem broadcast_in_any_order (h : hub.registry.Coherent)
    (perm : order.Perm (hub.registry.members envelope.roomId)) :
    hub.Dispatched envelope (hub.broadcastTo order envelope).1
      (hub.broadcastTo order envelope).2 ∧
    ∀ other : List Session, other.Perm (hub.registry.members envelope.roomId) →
      (hub.broadcastTo other envelope).1 = (hub.broadcastTo order envelope).1 ∧
      (hub.broadcastTo other envelope).2.Same (hub.broadcastTo order envelope).2 := by
  have hthis := dispatched_broadcastTo h perm
  refine ⟨hthis, fun other hother => ⟨?_, (dispatched_broadcastTo h hother).same hthis⟩⟩
  rw [report_broadcastTo h.toIndexed hother, report_broadcastTo h.toIndexed perm]

/-- A hub with queues for four sessions, one of them with a single place. -/
def withMailboxes : Hub :=
  [(sessionOf "alice" 1, 4), (sessionOf "bob" 2, 1), (sessionOf "carol" 3, 4),
    (sessionOf "dave" 4, 4)].foldl (fun hub made => hub.openSession made.1 made.2) {}

/-- Four sessions come into a room, the second of them into another one as well; it is sent a frame
that fills its queue, and the receiver of the third one goes away. -/
def gathering : List Act :=
  [.enroll (sessionOf "alice" 1), .enroll (sessionOf "bob" 2), .enroll (sessionOf "carol" 3),
    .enroll (sessionOf "dave" 4), .join (sessionOf "bob" 2).id "random",
    .broadcast ⟨"random", "first", none⟩, .join (sessionOf "alice" 1).id "general",
    .join (sessionOf "bob" 2).id "general", .join (sessionOf "carol" 3).id "general",
    .join (sessionOf "dave" 4).id "general", .handle (sessionOf "carol" 3).id]

/-- The first of the four causes a frame for the room, which then goes through the members from the
last one to the first one. -/
theorem broadcast_in_any_order_of_gathering :
    let hub := (withMailboxes.play gathering).2
    let envelope : Envelope := ⟨"general", "second", some (sessionOf "alice" 1).id⟩
    let order := (hub.registry.members "general").reverse
    hub.registry.Coherent ∧ order.Perm (hub.registry.members envelope.roomId) ∧
    (hub.broadcastTo order envelope).1.delivered = 1 ∧
    (hub.broadcastTo order envelope).1.dropped = 2 ∧
    ¬ (hub.broadcastTo order envelope).2.registry.rooms.Holds "random" (sessionOf "bob" 2).id := by
  intro hub envelope order
  have hcoherent : hub.registry.Coherent :=
    Run.coherent (Run.of_play gathering : Run withMailboxes _ _) rfl (by decide)
  have hperm : order.Perm (hub.registry.members envelope.roomId) := List.reverse_perm _
  obtain ⟨hdone, -⟩ := broadcast_in_any_order hcoherent hperm
  refine ⟨hcoherent, hperm, ?_, ?_, ?_⟩
  · rw [hdone.delivered_eq]
    decide +kernel
  · rw [hdone.dropped_eq]
    decide +kernel
  · rw [hdone.thinned.holds_rooms]
    rintro ⟨-, hkept⟩
    exact hkept (by decide +kernel)

end Hub

end RoomRelay
