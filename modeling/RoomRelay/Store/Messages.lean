import RoomRelay.Message
import RoomRelay.Table

/-!
# Messages in memory

The messages of each room are kept in the order in which they came.

## Main definitions

* `MessageStore`, `MessageStore.history` — the messages of each room
* `MessageStore.append` — one more message
* `MessageStore.page` — a window of a history, counted from its end
-/

namespace RoomRelay

/-- The messages of each room. -/
structure MessageStore where
  /-- The histories, oldest message first. -/
  rooms : Table Uuid (List Message) := {}
  deriving Inhabited

namespace MessageStore

/-- The messages of a room, oldest first. -/
def history (s : MessageStore) (roomId : Uuid) : List Message := (s.rooms.get? roomId).getD []

/-- The store with a message at the end of its room's history. -/
def append (s : MessageStore) (m : Message) : MessageStore :=
  ⟨s.rooms.insert m.roomId (s.history m.roomId ++ [m])⟩

/-- Of all but the `offset` newest messages of a room the `limit` newest, oldest first; a number
below zero counts as zero. -/
def page (s : MessageStore) (roomId : Uuid) (limit offset : Int) : List Message :=
  (((s.history roomId).reverse.drop offset.toNat).take limit.toNat).reverse

end MessageStore

end RoomRelay
