import RoomRelay.Proofs.Hub.Fanout
import RoomRelay.Proofs.Hub.Membership
import RoomRelay.Proofs.Registry.Locality

/-!
# Operations of different identities commute

Connections of different identities ask the hub to register and take out sessions and to let them
join and leave rooms, and nothing is known about who comes first. Two such operations may make or
remove the same room, and one of them may evict a third session that shares rooms with the other;
and still both orders end in the same state, and both operations answer the same.

## Main definitions

* `Hub.Operation`, `Hub.Operation.perform` — what can be asked for a session
* `Hub.settle` — the hub after an operation on the registry, with a queue closed

## Main results

* `Registry.actsOn_join`, `Registry.actsOn_leave`, `Hub.Operation.actsOn` — each operation reads and
  writes the part of one identity only
* `Hub.Operation.perform_eq` — which queue each operation closes is told by its answer
* `Hub.Run.operations_commute` — both orders give the same
-/

namespace RoomRelay

namespace Registry

variable {r r' : Registry} {id : SessionId} {session : Session}
variable {owner : SessionId → String} {userId : String} {roomId : String}

/-! ### Joining and leaving -/

theorem join_opened : (r.opened.join id roomId).2 = (r.join id roomId).2.opened := by
  have hcontains : r.opened.contains id = r.contains id := rfl
  unfold join
  rw [hcontains]
  split <;> rfl

theorem leave_opened : (r.opened.leave id roomId).2 = (r.leave id roomId).2.opened := by
  unfold leave detach opened
  cases r.joined.get? id with
  | none => rfl
  | some rooms =>
    by_cases hm : roomId ∈ rooms
    · simp only [hm, if_true]
      cases r.rooms.get? roomId <;> rfl
    · simp only [hm, if_false]

theorem fst_join_iff :
    (r.join id roomId).1 = true ↔ r.contains id = true ∧ ¬ r.IsMember id roomId :=
  @Hub.join_eq_true_iff { registry := r } id roomId

theorem fst_leave_iff : (r.leave id roomId).1 = true ↔ r.HasJoined id roomId :=
  @Hub.leave_eq_true_iff { registry := r } id roomId

theorem actsOn_join (hown : owner id = userId) : ActsOn owner userId (·.join id roomId) := by
  refine actsOn_of_rooms hown (fun r => ⟨byUser_join, sessions_join, closed_join⟩)
    (fun h => join_opened ▸ h.join) ?_ ?_ ?_
  · intro r k room hne
    rw [isMember_join]
    exact or_iff_left fun hk => hne hk.2.1
  · intro r r' _ _ hagree
    rw [Bool.eq_iff_iff, fst_join_iff, fst_join_iff, hagree.contains_eq hown,
      hagree.isMember_iff hown]
  · intro r r' room _ _ hagree
    rw [isMember_join, isMember_join, hagree.isMember_iff hown, hagree.contains_eq hown]

theorem actsOn_leave (hown : owner id = userId) : ActsOn owner userId (·.leave id roomId) := by
  refine actsOn_of_rooms hown (fun r => ⟨byUser_leave, sessions_leave, closed_leave⟩)
    (fun h => leave_opened ▸ h.leave) ?_ ?_ ?_
  · intro r k room hne
    rw [isMember_leave]
    exact and_iff_left fun hk => hne hk.2.1
  · intro r r' h h' hagree
    rw [Bool.eq_iff_iff, fst_leave_iff, fst_leave_iff, ← h.isMember_iff, ← h'.isMember_iff,
      hagree.isMember_iff hown]
  · intro r r' room h h' hagree
    rw [isMember_leave, isMember_leave, ← h.isMember_iff, ← h'.isMember_iff,
      hagree.isMember_iff hown, hagree.isMember_iff hown]

end Registry

namespace Hub

variable {hub start : Hub} {id : SessionId} {registry : Registry} {closed : Option SessionId}
variable {owner : SessionId → String} {past : List (Moment Hub Act)}

/-! ### What can be asked for a session -/

/-- The hub with another registry, and perhaps the queue of a session closed. -/
def settle (hub : Hub) (registry : Registry) : Option SessionId → Hub
  | none => { hub with registry }
  | some id => ({ hub with registry }.close id).2

@[simp] theorem registry_settle : (hub.settle registry closed).registry = registry := by
  cases closed <;> rfl

@[simp] theorem mailbox_settle :
    (hub.settle registry closed).mailbox id =
      if closed = some id then (hub.mailbox id).close.1 else hub.mailbox id := by
  cases closed with
  | none => rfl
  | some other =>
    rw [settle, mailbox_close]
    simp only [Option.some_inj]
    rfl

/-- Registers a session as the one of its identity, whether or not the hub is closed. Another one is
closed and returned. -/
def insert (hub : Hub) (session : Session) : Option Session × Hub :=
  ((hub.registry.insert session).1,
    hub.settle (hub.registry.insert session).2 ((hub.registry.insert session).1.map (·.id)))

theorem enroll_eq_insert (hub : Hub) (session : Session) :
    hub.enroll session =
      if hub.registry.closed then (.refused, (hub.close session.id).2)
      else (.admitted (hub.insert session).1, (hub.insert session).2) := by
  unfold enroll insert
  generalize hub.registry.insert session = p
  obtain ⟨_ | evicted, registry⟩ := p <;> rfl

/-- What can be asked for a session. -/
inductive Operation
  /-- To register it, be the hub closed or not. -/
  | insert (session : Session)
  /-- To take it out. -/
  | remove (session : Session)
  /-- To register it unless the hub is closed. -/
  | enroll (session : Session)
  /-- To take it out, and to learn whether its identity has a session still. -/
  | withdraw (session : Session)
  /-- To make it a member of a room. -/
  | join (session : Session) (roomId : String)
  /-- To end that. -/
  | leave (session : Session) (roomId : String)
  deriving DecidableEq

namespace Operation

/-- The session that it is asked for. -/
def session : Operation → Session
  | insert session | remove session | enroll session | withdraw session => session
  | join session _ | leave session _ => session

/-- What it answers. -/
abbrev Reply : Operation → Type
  | insert _ | remove _ => Option Session
  | enroll _ => Admission
  | withdraw _ => Withdrawal
  | join _ _ | leave _ _ => Bool

/-- The operation, carried out by the hub. -/
def perform : (op : Operation) → Hub → op.Reply × Hub
  | insert session, hub => hub.insert session
  | remove session, hub =>
    ((hub.registry.remove session.id).map (·.1), (hub.remove session.id).getD hub)
  | enroll session, hub => hub.enroll session
  | withdraw session, hub => hub.withdraw session
  | join session roomId, hub => hub.join session.id roomId
  | leave session roomId, hub => hub.leave session.id roomId

/-- What the operation does to the registry. -/
def act : (op : Operation) → Registry → op.Reply × Registry
  | insert session, r => r.insert session
  | remove session, r => r.expel session.id
  | enroll session, r =>
    if r.closed then (.refused, r)
    else (.admitted (r.insert session).1, (r.insert session).2)
  | withdraw session, r =>
    (⟨(r.expel session.id).1.isSome, ((r.expel session.id).2.current session.userId).isSome⟩,
      (r.expel session.id).2)
  | join session roomId, r => r.join session.id roomId
  | leave session roomId, r => r.leave session.id roomId

/-- The queue that the operation closes, told by its answer. -/
def closes : (op : Operation) → op.Reply → Option SessionId
  | insert _, evicted => evicted.map (·.id)
  | remove session, found => found.map fun _ => session.id
  | enroll session, .refused => some session.id
  | enroll _, .admitted evicted => evicted.map (·.id)
  | withdraw session, answer => if answer.removed then some session.id else none
  | join _ _, _ | leave _ _, _ => none

end Operation

/-- An operation of the hub is one on the registry, which closes the queue that its answer tells. -/
theorem Operation.perform_eq (op : Operation) (hub : Hub) :
    op.perform hub = ((op.act hub.registry).1,
      hub.settle (op.act hub.registry).2 (op.closes (op.act hub.registry).1)) := by
  cases op with
  | insert | join | leave => rfl
  | enroll session =>
    rw [perform, act, enroll_eq_insert]
    split <;> rfl
  | remove session =>
    rw [perform, act, Hub.remove, Registry.expel]
    cases hub.registry.remove session.id <;> rfl
  | withdraw session =>
    rw [perform, act, Hub.withdraw, Hub.remove, Registry.expel]
    cases hub.registry.remove session.id <;> rfl

/-- Each operation reads and writes the part of the identity only for whose session it is asked. -/
theorem Operation.actsOn (op : Operation) (hown : owner op.session.id = op.session.userId) :
    Registry.ActsOn owner op.session.userId op.act := by
  cases op with
  | insert session => exact Registry.actsOn_insert hown
  | remove session => exact Registry.actsOn_expel hown
  | enroll session =>
    exact ((Registry.actsOn_insert hown).answer (fun evicted _ => Admission.admitted evicted)
      fun _ _ => rfl).unlessClosed .refused
  | withdraw session =>
    refine (Registry.actsOn_expel hown).answer
      (fun found r => Withdrawal.mk found.isSome (r.current session.userId).isSome) ?_
    intro r r' found hagree
    have hcurrent : r.current session.userId = r'.current session.userId := hagree.current_eq
    rw [hcurrent]
  | join session roomId => exact Registry.actsOn_join hown
  | leave session roomId => exact Registry.actsOn_leave hown

/-- Operations of different identities answer the same in both orders, and end in the same hub. -/
theorem Operation.commute {first second : Operation}
    (hfirst : owner first.session.id = first.session.userId)
    (hsecond : owner second.session.id = second.session.userId)
    (hne : first.session.userId ≠ second.session.userId) (h : hub.registry.Owned owner) :
    (first.perform (second.perform hub).2).1 = (first.perform hub).1 ∧
    (second.perform (first.perform hub).2).1 = (second.perform hub).1 ∧
    (second.perform (first.perform hub).2).2.Same (first.perform (second.perform hub).2).2 := by
  obtain ⟨hreply, hreply', hsame⟩ :=
    (first.actsOn hfirst).commute (second.actsOn hsecond) hne h
  simp only [perform_eq, registry_settle]
  refine ⟨hreply, hreply', ⟨?_, ?_⟩⟩
  · simp only [registry_settle]
    exact hsame
  · -- The queues closed are told by the answers, and it is no matter which is closed first.
    intro id
    simp only [mailbox_settle, hreply, hreply']
    split <;> split <;> simp

/-! ### Whose identifiers are whose -/

/-- The identity of the session in a list that has an identifier. -/
def ownerAmong (sessions : List Session) (id : SessionId) : String :=
  ((sessions.find? (·.id = id)).map (·.userId)).getD ""

theorem ownerAmong_eq {sessions : List Session} {session : Session}
    (distinct : sessions.Pairwise fun s t => s.id = t.id → s = t) (hmem : session ∈ sessions) :
    ownerAmong sessions session.id = session.userId := by
  unfold ownerAmong
  induction sessions with
  | nil => exact absurd hmem List.not_mem_nil
  | cons first rest ih =>
    rw [List.pairwise_cons] at distinct
    rw [List.find?_cons]
    by_cases hid : first.id = session.id
    · -- Whoever comes first under the identifier is the session itself.
      have hfirst : first = session := by
        rcases List.mem_cons.mp hmem with rfl | hrest
        · rfl
        · exact distinct.1 session hrest hid
      simp [hfirst]
    · have hrest : session ∈ rest :=
        (List.mem_cons.mp hmem).resolve_left fun heq => hid (congrArg Session.id heq.symm)
      simpa [hid] using ih distinct.2 hrest

/-- **Operations of different identities commute.** After any run from an empty registry, two
operations asked for sessions of different identities, about whatever rooms, end in the same tables
and the same queues in both orders, and each of them answers the same in both. -/
theorem Run.operations_commute (run : Run start past hub) (empty : start.registry = {})
    (first second : Operation)
    (distinct : (enrolled past ++ [first.session, second.session]).Pairwise
      fun s t => s.id = t.id → s = t)
    (identities : first.session.userId ≠ second.session.userId) :
    (first.perform (second.perform hub).2).1 = (first.perform hub).1 ∧
    (second.perform (first.perform hub).2).1 = (second.perform hub).1 ∧
    (second.perform (first.perform hub).2).2.Same (first.perform (second.perform hub).2).2 := by
  have hcoherent := Run.coherent run empty (List.pairwise_append.mp distinct).1
  have howned : hub.registry.Owned
      (ownerAmong (enrolled past ++ [first.session, second.session])) := by
    refine ⟨hcoherent.opened, fun {id session} hs => ?_⟩
    have hmem : session ∈ enrolled past ++ [first.session, second.session] :=
      List.mem_append_left _ (Run.mem_enrolled run empty hs)
    rw [← ownerAmong_eq distinct hmem, hcoherent.session_id hs]
  exact Operation.commute (ownerAmong_eq distinct (by simp)) (ownerAmong_eq distinct (by simp))
    identities howned

/-- Two sessions share a room, in which nobody else is. -/
def duet : List Act :=
  [.enroll (sessionOf "alice" 1), .enroll (sessionOf "bob" 2),
    .join (sessionOf "alice" 1).id "general", .join (sessionOf "bob" 2).id "general"]

/-- One of the two leaves while the other one is evicted, and the room is gone with both. -/
theorem Run.operations_commute_of_duet :
    let hub := (play {} duet).2
    let comeback := Operation.insert (sessionOf "alice" 3)
    let farewell := Operation.leave (sessionOf "bob" 2) "general"
    ((enrolled (play {} duet).1 ++ [comeback.session, farewell.session]).Pairwise
      fun s t => s.id = t.id → s = t) ∧
    comeback.session.userId ≠ farewell.session.userId ∧
    (comeback.perform (farewell.perform hub).2).1 = some (sessionOf "alice" 1) ∧
    (comeback.perform (farewell.perform hub).2).2.registry.rooms.contains "general" = false := by
  intro hub comeback farewell
  have hdistinct : (enrolled (play {} duet).1 ++ [comeback.session, farewell.session]).Pairwise
      fun s t => s.id = t.id → s = t := by decide
  have hother : comeback.session.userId ≠ farewell.session.userId := by decide
  have hevicted : (comeback.perform hub).1 = some (sessionOf "alice" 1) := by decide
  have hgone : (farewell.perform (comeback.perform hub).2).2.registry.rooms.contains "general" =
      false := by decide
  obtain ⟨hreply, -, hsame⟩ := Run.operations_commute (Run.of_play duet : Run {} _ _) rfl
    comeback farewell hdistinct hother
  exact ⟨hdistinct, hother, hreply.trans hevicted,
    (hsame.registry.rooms.contains_eq "general").symm.trans hgone⟩

end Hub

end RoomRelay
