import RoomRelay.Proofs.Registry.Sameness

/-!
# What belongs to one identity

The registry falls into parts, one for each identity: which session the identity is current with,
which of its sessions are registered, and which rooms they are in. The sets of members cut across
the parts, but whether one session is in a room is a matter of its identity alone. An operation on a
session of an identity reads and writes the part of that identity only; so two operations of
different identities do not notice which of them comes first.

None of this has to do with whether the registry is closed, so the four tables need only agree as
they would in an open one.

## Main definitions

* `Registry.Owned` — the four tables agree, and each registered session is its owner's
* `Registry.AgreeOn` — two registries have the same part for an identity
* `Registry.ActsOn` — an operation reads and writes the part of one identity only
* `Registry.expel` — taking a session out, as an operation that always answers

## Main results

* `Registry.ActsOn.commute` — operations of different identities commute
* `Registry.actsOn_expel`, `Registry.actsOn_insert` — sessions come and go
* `Registry.actsOn_of_rooms` — a session comes into rooms and leaves them
-/

namespace RoomRelay.Registry

variable {r r' r'' rest rest' : Registry} {id : SessionId} {session : Session}
variable {owner : SessionId → String} {userId other : String} {roomId : String}

/-! ### Parts -/

/-- The registry with the tables that it has, but open. -/
def opened (r : Registry) : Registry := { r with closed := false }

theorem Coherent.opened (h : r.Coherent) : r.opened.Coherent where
  session_id := h.session_id
  isMember_iff := h.isMember_iff
  contains_of_joined := h.contains_of_joined
  rooms_noEmpty := h.rooms_noEmpty
  joined_noEmpty := h.joined_noEmpty
  closed_empty hc := absurd hc (by simp [Registry.opened])
  current_iff := h.current_iff

/-- The four tables agree, and each identifier under which a session is registered is owned by the
identity of that session. -/
structure Owned (owner : SessionId → String) (r : Registry) : Prop where
  coherent : r.opened.Coherent
  owner_eq : ∀ {id session}, r.sessions.get? id = some session → owner id = session.userId

/-- Two registries are both closed or both open, and have the same part for an identity. -/
structure AgreeOn (owner : SessionId → String) (userId : String) (r r' : Registry) : Prop where
  closed_eq : r.closed = r'.closed
  current_eq : r.current userId = r'.current userId
  get?_sessions : ∀ {id}, owner id = userId → r.sessions.get? id = r'.sessions.get? id
  isMember_iff : ∀ {id roomId}, owner id = userId → (r.IsMember id roomId ↔ r'.IsMember id roomId)

namespace AgreeOn

theorem refl (owner : SessionId → String) (userId : String) (r : Registry) :
    AgreeOn owner userId r r :=
  ⟨rfl, rfl, fun _ => rfl, fun _ => Iff.rfl⟩

theorem symm (h : AgreeOn owner userId r r') : AgreeOn owner userId r' r :=
  ⟨h.closed_eq.symm, h.current_eq.symm, fun ho => (h.get?_sessions ho).symm,
    fun ho => (h.isMember_iff ho).symm⟩

theorem trans (h : AgreeOn owner userId r r') (h' : AgreeOn owner userId r' r'') :
    AgreeOn owner userId r r'' :=
  ⟨h.closed_eq.trans h'.closed_eq, h.current_eq.trans h'.current_eq,
    fun ho => (h.get?_sessions ho).trans (h'.get?_sessions ho),
    fun ho => (h.isMember_iff ho).trans (h'.isMember_iff ho)⟩

theorem contains_eq (h : AgreeOn owner userId r r') (ho : owner id = userId) :
    r.contains id = r'.contains id :=
  congrArg Option.isSome (h.get?_sessions ho)

theorem rival?_eq (h : AgreeOn owner session.userId r r') :
    r.rival? session = r'.rival? session :=
  congrArg (Option.filter _) h.current_eq

end AgreeOn

namespace Owned

variable (h : Owned owner r)

include h

theorem isMember_iff : r.IsMember id roomId ↔ r.HasJoined id roomId := h.coherent.isMember_iff

/-- Two such registries that agree on every part are the same. -/
theorem same (h' : Owned owner r') (hagree : ∀ userId, AgreeOn owner userId r r') : r.Same r' := by
  have hopened : r.opened.Same r'.opened := h.coherent.same h'.coherent.toIndexed
    (fun userId => (hagree userId).current_eq) (fun id => (hagree (owner id)).get?_sessions rfl)
    (fun id room => (hagree (owner id)).isMember_iff rfl) rfl
  exact ⟨hopened.byUser, hopened.sessions, hopened.rooms, hopened.joined, (hagree "").closed_eq⟩

end Owned

/-! ### Operations on one part -/

/-- An operation reads the part of one identity only, and writes no other. -/
structure ActsOn {ρ : Type} (owner : SessionId → String) (userId : String)
    (act : Registry → ρ × Registry) : Prop where
  owned : ∀ {r}, Owned owner r → Owned owner (act r).2
  elsewhere : ∀ {r other}, Owned owner r → other ≠ userId → AgreeOn owner other (act r).2 r
  reply_eq : ∀ {r r'}, Owned owner r → Owned owner r' → AgreeOn owner userId r r' →
    (act r).1 = (act r').1
  within : ∀ {r r'}, Owned owner r → Owned owner r' → AgreeOn owner userId r r' →
    AgreeOn owner userId (act r).2 (act r').2

namespace ActsOn

variable {ρ τ : Type} {f : Registry → ρ × Registry} {g : Registry → τ × Registry}

/-- The answer may be told in another way, from the part of the identity as it is afterwards. -/
theorem answer (hf : ActsOn owner userId f) (read : ρ → Registry → τ)
    (hread : ∀ {r r'} a, AgreeOn owner userId r r' → read a r = read a r') :
    ActsOn owner userId fun r => (read (f r).1 (f r).2, (f r).2) where
  owned := hf.owned
  elsewhere := hf.elsewhere
  reply_eq h h' hagree := by
    rw [hf.reply_eq h h' hagree]
    exact hread _ (hf.within h h' hagree)
  within := hf.within

/-- An operation may be refused by a closed registry. -/
theorem unlessClosed (hf : ActsOn owner userId f) (refusal : ρ) :
    ActsOn owner userId fun r => if r.closed then (refusal, r) else f r where
  owned := by
    intro r h
    split
    · exact h
    · exact hf.owned h
  elsewhere := by
    intro r other h hne
    split
    · exact .refl ..
    · exact hf.elsewhere h hne
  reply_eq := by
    intro r r' h h' hagree
    rw [hagree.closed_eq]
    split
    · rfl
    · exact hf.reply_eq h h' hagree
  within := by
    intro r r' h h' hagree
    rw [hagree.closed_eq]
    split
    · exact hagree
    · exact hf.within h h' hagree

/-- The part of the first identity is the same in both orders. -/
theorem agreeOn_first (hf : ActsOn owner userId f) (hg : ActsOn owner other g)
    (hne : userId ≠ other) (h : Owned owner r) :
    AgreeOn owner userId (g (f r).2).2 (f (g r).2).2 :=
  (hg.elsewhere (hf.owned h) hne).trans
    (hf.within h (hg.owned h) (hg.elsewhere h hne).symm)

/-- **Operations on different parts commute.** In both orders they give the same answers and the
same registry. -/
theorem commute (hf : ActsOn owner userId f) (hg : ActsOn owner other g) (hne : userId ≠ other)
    (h : Owned owner r) :
    (f (g r).2).1 = (f r).1 ∧ (g (f r).2).1 = (g r).1 ∧ (g (f r).2).2.Same (f (g r).2).2 := by
  refine ⟨hf.reply_eq (hg.owned h) h (hg.elsewhere h hne),
    hg.reply_eq (hf.owned h) h (hf.elsewhere h hne.symm),
    (hg.owned (hf.owned h)).same (hf.owned (hg.owned h)) fun third => ?_⟩
  by_cases hfirst : third = userId
  · exact hfirst ▸ hf.agreeOn_first hg hne h
  by_cases hsecond : third = other
  · exact hsecond ▸ (hg.agreeOn_first hf hne.symm h).symm
  -- The part of anybody else is as it was before both.
  · exact ((hg.elsewhere (hf.owned h) hsecond).trans (hf.elsewhere h hfirst)).trans
      ((hf.elsewhere (hg.owned h) hfirst).trans (hg.elsewhere h hsecond)).symm

end ActsOn

/-! ### Taking a session out -/

/-- Takes a session out, if it is registered, and says which one it was. -/
def expel (r : Registry) (id : SessionId) : Option Session × Registry :=
  match r.remove id with
  | some (session, rest) => (some session, rest)
  | none => (none, r)

theorem expel_cases (r : Registry) (id : SessionId) :
    (∃ session, (r.expel id).1 = some session ∧ Removed r id session (r.expel id).2) ∨
    (r.sessions.get? id = none ∧ r.expel id = (none, r)) := by
  unfold expel
  cases hr : r.remove id with
  | some pair => exact Or.inl ⟨pair.1, rfl, removed_of_remove hr⟩
  | none => exact Or.inr ⟨remove_eq_none_iff.mp hr, rfl⟩

theorem fst_expel : (r.expel id).1 = r.sessions.get? id := by
  rcases expel_cases r id with ⟨session, he, hr⟩ | ⟨hnone, he⟩
  · rw [he, hr.registered]
  · rw [he, hnone]

theorem Removed.opened (h : Removed r id session r') : Removed r.opened id session r'.opened :=
  ⟨h.registered, h.get?_sessions, h.current_eq, h.isMember_iff, h.get?_joined, h.noEmpty_rooms, rfl⟩

theorem Owned.removed (h : Owned owner r) (hr : Removed r id session r') : Owned owner r' where
  coherent := h.coherent.removed hr.opened
  owner_eq hs := h.owner_eq (hr.registered_of_registered hs)

/-- Taking a session out leaves the parts of other identities alone. -/
theorem Removed.agreeOn (hr : Removed r id session r') (hown : owner id = session.userId)
    (hne : other ≠ session.userId) : AgreeOn owner other r' r where
  closed_eq := hr.closed_eq
  current_eq := by
    rw [hr.current_eq, if_neg fun hc => hne hc.1]
  get?_sessions := by
    intro k hk
    rw [hr.get?_sessions, if_neg]
    rintro rfl
    exact hne (hk.symm.trans hown)
  isMember_iff := by
    intro k room hk
    rw [hr.isMember_iff]
    refine and_iff_left ?_
    rintro ⟨rfl, -⟩
    exact hne (hk.symm.trans hown)

/-- Taking a session out of two registries leaves them alike where they were. -/
theorem AgreeOn.removed (hagree : AgreeOn owner userId r r') (h : Owned owner r)
    (h' : Owned owner r') (hr : Removed r id session rest) (hr' : Removed r' id session rest')
    (hown : owner id = userId) : AgreeOn owner userId rest rest' where
  closed_eq := by rw [hr.closed_eq, hr'.closed_eq, hagree.closed_eq]
  current_eq := by rw [hr.current_eq, hr'.current_eq, hagree.current_eq]
  get?_sessions := by
    intro k hk
    rw [hr.get?_sessions, hr'.get?_sessions, hagree.get?_sessions hk]
  isMember_iff := by
    intro k room hk
    rw [hr.isMember_iff, hr'.isMember_iff, ← h.isMember_iff, ← h'.isMember_iff,
      hagree.isMember_iff hk, hagree.isMember_iff hown]

theorem actsOn_expel (hown : owner id = userId) : ActsOn owner userId (·.expel id) where
  owned := by
    intro r h
    rcases expel_cases r id with ⟨session, -, hr⟩ | ⟨-, he⟩
    · exact h.removed hr
    · rwa [he]
  elsewhere := by
    intro r other h hne
    rcases expel_cases r id with ⟨session, -, hr⟩ | ⟨-, he⟩
    · have hsession := h.owner_eq hr.registered
      exact hr.agreeOn hsession (hsession ▸ hown.symm ▸ hne)
    · rw [he]
      exact .refl ..
  reply_eq := by
    intro r r' _ _ hagree
    rw [fst_expel, fst_expel, hagree.get?_sessions hown]
  within := by
    intro r r' h h' hagree
    have hget := hagree.get?_sessions hown
    -- The two registries agree on whether the session is there, so two of the cases are void.
    rcases expel_cases r id with ⟨session, -, hr⟩ | ⟨hnone, he⟩ <;>
      rcases expel_cases r' id with ⟨session', -, hr'⟩ | ⟨hnone', he'⟩
    · obtain rfl : session = session' := by
        rw [hr.registered, hr'.registered] at hget
        exact Option.some_inj.mp hget
      exact hagree.removed h h' hr hr' hown
    · rw [hr.registered, hnone'] at hget
      exact absurd hget (by simp)
    · rw [hnone, hr'.registered] at hget
      exact absurd hget (by simp)
    · rwa [he, he']

/-! ### Registering a session -/

theorem Owned.enter (h : Owned owner r) (hown : owner session.id = session.userId)
    (hfree : ∀ k, r.current session.userId = some k → k = session.id) :
    Owned owner (r.enter session) where
  coherent := h.coherent.enter rfl (fun _ hs => (h.owner_eq hs).symm.trans hown) hfree
  owner_eq := by
    intro k s hs
    rw [get?_sessions_enter] at hs
    split at hs
    · rename_i hid
      rw [← hid, hown, Option.some_inj.mp hs]
    · exact h.owner_eq hs

theorem agreeOn_enter (hown : owner session.id = session.userId)
    (hne : other ≠ session.userId) : AgreeOn owner other (r.enter session) r where
  closed_eq := rfl
  current_eq := by rw [current_enter, if_neg hne.symm]
  get?_sessions := by
    intro k hk
    rw [get?_sessions_enter, if_neg]
    rintro rfl
    exact hne (hk.symm.trans hown)
  isMember_iff _ := Iff.rfl

theorem AgreeOn.enter (h : AgreeOn owner userId r r') :
    AgreeOn owner userId (r.enter session) (r'.enter session) where
  closed_eq := h.closed_eq
  current_eq := by rw [current_enter, current_enter, h.current_eq]
  get?_sessions := by
    intro k hk
    rw [get?_sessions_enter, get?_sessions_enter, h.get?_sessions hk]
  isMember_iff := h.isMember_iff

/-- Takes out another session of the identity, if there is one. -/
def evict (r : Registry) (session : Session) : Option Session × Registry :=
  match r.rival? session with
  | some rival => r.expel rival
  | none => (none, r)

/-- A session is registered in two steps. -/
theorem insert_eq_enter_evict (r : Registry) (session : Session) :
    r.insert session = ((r.evict session).1, (r.evict session).2.enter session) := by
  unfold insert evict expel
  cases r.rival? session with
  | none => rfl
  | some rival =>
    simp only [Option.bind_eq_bind, Option.bind_some]
    cases r.remove rival <;> rfl

/-- The rival of a session is registered, and belongs to the same identity. -/
theorem Owned.of_rival? (h : Owned owner r) (hrival : r.rival? session = some id) :
    ∃ found, r.sessions.get? id = some found ∧ found.userId = session.userId ∧
      owner id = session.userId := by
  obtain ⟨found, hfound, hu⟩ :=
    h.coherent.session_of_current (rival?_eq_some_iff.mp hrival).1
  exact ⟨found, hfound, hu, (h.owner_eq hfound).trans hu⟩

theorem actsOn_evict (owner : SessionId → String) (session : Session) :
    ActsOn owner session.userId (·.evict session) where
  owned := by
    intro r h
    unfold evict
    split
    · exact (actsOn_expel rfl).owned h
    · exact h
  elsewhere := by
    intro r other h hne
    unfold evict
    split
    · -- The rival has the same owner, so that to expel it concerns nobody else.
      rename_i hrival
      obtain ⟨-, -, -, hown⟩ := h.of_rival? hrival
      exact (actsOn_expel hown).elsewhere h hne
    · exact .refl ..
  reply_eq := by
    intro r r' h h' hagree
    unfold evict
    rw [← hagree.rival?_eq]
    split
    · rename_i hrival
      obtain ⟨-, -, -, hown⟩ := h.of_rival? hrival
      exact (actsOn_expel hown).reply_eq h h' hagree
    · rfl
  within := by
    intro r r' h h' hagree
    unfold evict
    rw [← hagree.rival?_eq]
    split
    · rename_i hrival
      obtain ⟨-, -, -, hown⟩ := h.of_rival? hrival
      exact (actsOn_expel hown).within h h' hagree
    · exact hagree

/-- With its rival taken out, nobody is in the way of a session. -/
theorem Owned.current_evict (h : Owned owner r)
    (hc : (r.evict session).2.current session.userId = some id) : id = session.id := by
  unfold evict at hc
  split at hc
  · rename_i rival hrival
    obtain ⟨found, hfound, hu, -⟩ := h.of_rival? hrival
    rcases expel_cases r rival with ⟨gone, -, hr⟩ | ⟨hnone, -⟩
    · obtain rfl : found = gone := Option.some_inj.mp (hfound.symm.trans hr.registered)
      have hcur := (rival?_eq_some_iff.mp hrival).1
      rw [hr.current_eq, if_pos ⟨hu.symm, by rw [hcur, h.coherent.session_id hfound]⟩] at hc
      exact absurd hc (by simp)
    · exact absurd (hfound.symm.trans hnone) (by simp)
  · rename_i hrival
    by_cases hid : id = session.id
    · exact hid
    · rw [rival?_eq_some_iff.mpr ⟨hc, hid⟩] at hrival
      exact absurd hrival (by simp)

theorem actsOn_insert (hown : owner session.id = session.userId) :
    ActsOn owner session.userId (·.insert session) := by
  have hevict := actsOn_evict owner session
  refine ⟨?_, ?_, ?_, ?_⟩
  · intro r h
    rw [insert_eq_enter_evict]
    exact (hevict.owned h).enter hown fun _ hc => h.current_evict hc
  · intro r other h hne
    rw [insert_eq_enter_evict]
    exact (agreeOn_enter hown hne).trans (hevict.elsewhere h hne)
  · intro r r' h h' hagree
    rw [insert_eq_enter_evict, insert_eq_enter_evict]
    exact hevict.reply_eq h h' hagree
  · intro r r' h h' hagree
    rw [insert_eq_enter_evict, insert_eq_enter_evict]
    exact (hevict.within h h' hagree).enter

/-! ### The rooms of one session -/

/-- An operation that is about the rooms of one session and about no other table. -/
theorem actsOn_of_rooms {ρ : Type} {act : Registry → ρ × Registry} (hown : owner id = userId)
    (tables : ∀ r, (act r).2.byUser = r.byUser ∧ (act r).2.sessions = r.sessions ∧
      (act r).2.closed = r.closed)
    (coherent : ∀ {r}, r.opened.Coherent → (act r).2.opened.Coherent)
    (others : ∀ {r k room}, k ≠ id → ((act r).2.IsMember k room ↔ r.IsMember k room))
    (reply_eq : ∀ {r r'}, Owned owner r → Owned owner r' → AgreeOn owner userId r r' →
      (act r).1 = (act r').1)
    (isMember_iff : ∀ {r r' room}, Owned owner r → Owned owner r' → AgreeOn owner userId r r' →
      ((act r).2.IsMember id room ↔ (act r').2.IsMember id room)) :
    ActsOn owner userId act where
  owned := by
    intro r h
    refine ⟨coherent h.coherent, fun hs => ?_⟩
    rw [(tables r).2.1] at hs
    exact h.owner_eq hs
  elsewhere := by
    intro r other _ hne
    obtain ⟨hbyUser, hsessions, hclosed⟩ := tables r
    refine ⟨hclosed, congrArg (Table.get? · other) hbyUser, fun _ => by rw [hsessions], ?_⟩
    intro k room hk
    refine others ?_
    rintro rfl
    exact hne (hk.symm.trans hown)
  reply_eq := reply_eq
  within := by
    intro r r' h h' hagree
    obtain ⟨hbyUser, hsessions, hclosed⟩ := tables r
    obtain ⟨hbyUser', hsessions', hclosed'⟩ := tables r'
    refine ⟨by rw [hclosed, hclosed', hagree.closed_eq], ?_, ?_, ?_⟩
    · rw [current, current, hbyUser, hbyUser']
      exact hagree.current_eq
    · intro k hk
      rw [hsessions, hsessions', hagree.get?_sessions hk]
    · intro k room hk
      by_cases hid : k = id
      · exact hid ▸ isMember_iff h h' hagree
      · rw [others hid, others hid, hagree.isMember_iff hk]

end RoomRelay.Registry
