import RoomRelay.Uuid
import RoomRelay.Text.Blank

/-!
# Room keys

Connections name rooms freely, and the same room can be spelt in several ways. The hub keeps members
under the room's *key*: the text without blanks around it, or the hyphenated spelling if the text
spells an identifier.

## Main definitions

* `roomKey` — the key of a room as named by a client, if it names one
-/

namespace RoomRelay

/-- The key of a room as named by a client; a blank text names none. -/
def roomKey (raw : String) : Option String :=
  let name := Text.trim raw
  if name.isEmpty then none
  else match Uuid.parse? name with
    | some id => some id.toString
    | none => some name

end RoomRelay
