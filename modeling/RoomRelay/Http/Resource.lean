/-!
# Resources

A path names a resource by its parts between slashes. A part that names a room or an identity may be
empty unless it is the last one; its escapes are looked at later.

## Main definitions

* `Resource`, `Resource.ofPath?` — what a path names
* `Action`, `Resource.action?` — what can be done with it
* `Resource.allowed` — the methods that it knows
-/

namespace RoomRelay

/-- What a path names; parts that hold names are kept as they are written. -/
inductive Resource
  /-- Whether the service is there. -/
  | health
  /-- The rooms of the caller. -/
  | rooms
  /-- One room. -/
  | room (part : String)
  /-- The messages of a room. -/
  | history (part : String)
  /-- Who types in a room. -/
  | typing (part : String)
  /-- New messages. -/
  | messages
  /-- Whether an identity is online. -/
  | presence (part : String)
  /-- The socket. -/
  | socket
  deriving DecidableEq

/-- What can be done with a resource. -/
inductive Action
  | health
  | listRooms
  | createRoom
  | getRoom (part : String)
  | listMessages (part : String)
  | listTyping (part : String)
  | sendMessage
  | getPresence (part : String)
  | connect
  deriving DecidableEq

namespace Resource

/-- The parts of a path. -/
def parts (path : String) : List String := (path.toList.splitOn '/').map String.ofList

/-- What parts name. -/
def ofParts? : List String → Option Resource
  | ["", "health"] => some health
  | ["", "rooms"] => some rooms
  | ["", "rooms", part] => if part = "" then none else some (room part)
  | ["", "rooms", part, "messages"] => some (history part)
  | ["", "rooms", part, "typing"] => some (typing part)
  | ["", "messages"] => some messages
  | ["", "users", part, "presence"] => some (presence part)
  | ["", "ws"] => some socket
  | _ => none

/-- What a path names. -/
def ofPath? (path : String) : Option Resource := ofParts? (parts path)

/-- What is done when a resource is asked for. -/
def shown? : Resource → Option Action
  | health => some .health
  | rooms => some .listRooms
  | room part => some (.getRoom part)
  | history part => some (.listMessages part)
  | typing part => some (.listTyping part)
  | messages => none
  | presence part => some (.getPresence part)
  | socket => some .connect

/-- What is done when something is added to a resource. -/
def added? : Resource → Option Action
  | rooms => some .createRoom
  | messages => some .sendMessage
  | _ => none

/-- What a method does with a resource; `HEAD` does what `GET` does. -/
def action? (r : Resource) (method : String) : Option Action :=
  if method = "GET" ∨ method = "HEAD" then r.shown?
  else if method = "POST" then r.added?
  else none

/-- The methods that a resource knows. -/
def allowed (r : Resource) : String :=
  let methods := (r.shown?.map fun _ => "GET,HEAD").toList ++
    (r.added?.map fun _ => "POST").toList
  ",".intercalate methods

end Resource

end RoomRelay
