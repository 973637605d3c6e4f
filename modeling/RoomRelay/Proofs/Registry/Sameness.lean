import RoomRelay.Hub
import RoomRelay.Proofs.Registry.Coherence

/-!
# Registries that answer alike

Tables and sets keep their entries in the order in which they came, which is of no consequence to
whoever looks things up. Two registries are the same if all four tables are the same as maps and the
sets in them have the same elements; two hubs are the same if besides all queues are.

## Main definitions

* `Table.Alike` — tables of sets with the same keys and elements
* `Registry.Same`, `Hub.Same`

## Main results

* `Registry.Indexed.same` — sessions, identities and members decide about everything else
-/

namespace RoomRelay

section Sets

variable {κ α : Type} [DecidableEq κ] {t t' : Table κ (FinSet α)}

/-- Two tables of sets have the same keys, and under each of them the same elements. -/
structure Table.Alike (t t' : Table κ (FinSet α)) : Prop where
  contains_eq : ∀ key, t.contains key = t'.contains key
  holds_iff : ∀ key a, t.Holds key a ↔ t'.Holds key a

/-- Without empty sets the elements tell the keys. -/
theorem Table.NoEmpty.alike (h : t.NoEmpty) (h' : t'.NoEmpty)
    (holds_iff : ∀ key a, t.Holds key a ↔ t'.Holds key a) : t.Alike t' where
  contains_eq := by
    intro key
    rw [Bool.eq_iff_iff, h.contains_iff, h'.contains_iff]
    exact exists_congr fun a => holds_iff key a
  holds_iff := holds_iff

end Sets

/-- Two registries have the same tables, as maps and sets. -/
structure Registry.Same (r r' : Registry) : Prop where
  byUser : r.byUser.Same r'.byUser
  sessions : r.sessions.Same r'.sessions
  rooms : r.rooms.Alike r'.rooms
  joined : r.joined.Alike r'.joined
  closed : r.closed = r'.closed

/-- Where rooms and joined rooms mirror each other, registries are the same if they agree on
identities, sessions and members. -/
theorem Registry.Indexed.same {r r' : Registry} (h : r.Indexed) (h' : r'.Indexed)
    (current_eq : ∀ userId, r.current userId = r'.current userId)
    (get?_sessions : ∀ id, r.sessions.get? id = r'.sessions.get? id)
    (isMember_iff : ∀ id room, r.IsMember id room ↔ r'.IsMember id room)
    (closed_eq : r.closed = r'.closed) : r.Same r' where
  byUser := current_eq
  sessions := get?_sessions
  rooms := h.rooms_noEmpty.alike h'.rooms_noEmpty fun room id => isMember_iff id room
  joined := h.joined_noEmpty.alike h'.joined_noEmpty fun id room =>
    (h.isMember_iff.symm.trans (isMember_iff id room)).trans h'.isMember_iff
  closed := closed_eq

/-- Two hubs have the same registry and the same queues. -/
structure Hub.Same (hub hub' : Hub) : Prop where
  registry : hub.registry.Same hub'.registry
  mailbox : ∀ id, hub.mailbox id = hub'.mailbox id

end RoomRelay
