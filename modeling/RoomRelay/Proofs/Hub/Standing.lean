import RoomRelay.Proofs.Hub.Fanout

/-!
# Sessions that are gone

A session that has been registered is registered still, or it is gone: it is in none of the tables,
and its queue is closed. No act on the hub brings it back, unless it is registered a second time or
somebody at the other end of its queue opens that again.

## Main definitions

* `Registry.Absent` — the session is in none of the four tables
* `Hub.Gone` — the session is not registered, and it is closed

## Main results

* `Hub.Step.unchanged_or_tornDown` — what an act does to one session, in short
* `Hub.Step.gone`, `Hub.Step.registered_or_gone` — what is gone stays gone
-/

namespace RoomRelay

variable {id : SessionId}

/-- The session is in none of the four tables. -/
structure Registry.Absent (r : Registry) (id : SessionId) : Prop where
  byUser : ∀ userId, r.byUser.get? userId ≠ some id
  sessions : r.sessions.get? id = none
  rooms : ∀ roomId, ¬ r.rooms.Holds roomId id
  joined : r.joined.get? id = none

/-- Where the tables agree, a session that is not registered is in none of them. -/
theorem Registry.Coherent.absent {r : Registry} (h : r.Coherent) (hc : r.contains id = false) :
    r.Absent id where
  byUser := by
    intro userId hu
    obtain ⟨session, hs, -⟩ := h.session_of_current hu
    have hcontains : r.contains id = true := contains_iff.mpr ⟨session, hs⟩
    exact absurd (hc.symm.trans hcontains) (by simp)
  sessions := by
    rw [contains, Table.contains, Option.isSome_eq_false_iff, Option.isNone_iff_eq_none] at hc
    exact hc
  rooms := by
    intro roomId hm
    exact absurd (hc.symm.trans (h.contains_of_isMember hm)) (by simp)
  joined := by
    by_contra hj
    have hkey : r.joined.contains id = true := Option.isSome_iff_ne_none.mpr hj
    exact absurd (hc.symm.trans (h.contains_of_joined hkey)) (by simp)

namespace Hub

variable {hub hub' : Hub} {session : Session} {act : Act}

theorem Kept.isClosed_eq (h : Kept id hub hub') : hub'.isClosed id = hub.isClosed id :=
  congrArg Mailbox.isClosed h.mailbox_eq

theorem TornDown.isClosed (h : TornDown id hub hub') : hub'.isClosed id = true := by
  rw [Hub.isClosed, h.mailbox_eq, Mailbox.isClosed_close]

theorem enroll_eq_refused_iff :
    (hub.enroll session).1 = .refused ↔ hub.registry.closed = true := by
  unfold enroll
  split
  · simp [*]
  · split <;> simp [*]

/-- Unless it is to be registered, a session is as much registered after an act as before, and as
much closed if the act leaves its queue to the hub, or it has been torn down. -/
theorem Step.unchanged_or_tornDown (step : Step hub act hub') (h : hub.registry.Indexed)
    (hother : ∀ session, act = .enroll session → session.id ≠ id) :
    (hub'.registry.contains id = hub.registry.contains id ∧
      (act ≠ .handle id → hub'.isClosed id = hub.isClosed id)) ∨ TornDown id hub hub' := by
  by_cases hact : act.Concerns id
  · cases step with
    | @enroll session => exact absurd hact (hother session rfl)
    | @broadcast envelope order perm =>
      by_cases haddr : envelope.Addresses hub id
      · cases offered_of_addresses h perm haddr with
        | delivered _ hcontains hmailbox =>
          -- A frame more in the queue does not close it.
          refine Or.inl ⟨hcontains, fun _ => ?_⟩
          rw [Hub.isClosed, hmailbox]
          rfl
        | overflowed _ htorn => exact Or.inr htorn
        | unreachable _ hkept => exact Or.inl ⟨hkept.contains_eq, fun _ => hkept.isClosed_eq⟩
      · have hkept := kept_of_not_addresses h perm haddr
        exact Or.inl ⟨hkept.contains_eq, fun _ => hkept.isClosed_eq⟩
    | @take other frame rest htake =>
      obtain rfl : other = id := hact
      refine Or.inl ⟨rfl, fun _ => ?_⟩
      rw [Hub.isClosed, mailbox_setMailbox, if_pos rfl]
      exact Mailbox.isClosed_of_take htake
    | @handle other =>
      obtain rfl : other = id := hact
      exact Or.inl ⟨rfl, fun hne => absurd rfl hne⟩
    | withdraw | join | leave | drain => exact absurd hact not_false
  · rcases step.kept_or_tornDown h hact with hkept | htorn
    · exact Or.inl ⟨hkept.contains_eq, fun _ => hkept.isClosed_eq⟩
    · exact Or.inr htorn

/-- The session is not registered, and it is closed. -/
structure Gone (id : SessionId) (hub : Hub) : Prop where
  absent : hub.registry.contains id = false
  closed : hub.isClosed id = true

theorem TornDown.isGone (h : TornDown id hub hub') : Gone id hub' := ⟨h.gone, h.isClosed⟩

/-- Whoever is gone stays so. -/
theorem Step.gone (step : Step hub act hub') (h : hub.registry.Indexed) (hgone : Gone id hub)
    (hother : ∀ session, act = .enroll session → session.id ≠ id)
    (hshut : act = .handle id → hub'.isClosed id = true) : Gone id hub' := by
  rcases step.unchanged_or_tornDown h hother with ⟨hcontains, hclosed⟩ | htorn
  · refine ⟨hcontains.trans hgone.absent, ?_⟩
    by_cases hact : act = .handle id
    · exact hshut hact
    · exact (hclosed hact).trans hgone.closed
  · exact htorn.isGone

/-- Whoever is registered stays so, or is gone. -/
theorem Step.registered_or_gone (step : Step hub act hub') (h : hub.registry.Indexed)
    (hin : hub.registry.contains id = true ∨ Gone id hub)
    (hother : ∀ session, act = .enroll session → session.id ≠ id)
    (hshut : act = .handle id → hub.isClosed id = true → hub'.isClosed id = true) :
    hub'.registry.contains id = true ∨ Gone id hub' := by
  rcases hin with hcontains | hgone
  · rcases step.unchanged_or_tornDown h hother with ⟨heq, -⟩ | htorn
    · exact Or.inl (heq.trans hcontains)
    · exact Or.inr htorn.isGone
  · exact Or.inr (step.gone h hgone hother fun hact => hshut hact hgone.closed)

/-- A session that was to be registered is registered afterwards, or it is gone. -/
theorem registered_or_gone_enroll (session : Session) (h : hub.registry.Indexed) :
    (hub.enroll session).2.registry.contains session.id = true ∨
      Gone session.id (hub.enroll session).2 := by
  rcases enroll_self session h with ⟨hregistry, hclosed, hmailbox⟩ | ⟨hcontains, -⟩
  · refine Or.inr ⟨?_, ?_⟩
    · -- A closed hub has nobody registered.
      rw [hregistry, Registry.contains, (h.closed_empty hclosed).2.1]
      rfl
    · rw [isClosed, hmailbox, Mailbox.isClosed_close]
  · exact Or.inl hcontains

end Hub

end RoomRelay
