import RoomRelay.Session
import RoomRelay.Table

/-!
# Who is connected and who is in which room

The registry knows for each identity its one session, and for each room its members and the other
way round. A room without members is not kept, nor is a session without rooms in the reverse table.

## Main definitions

* `Registry` — the four tables
* `Registry.insert`, `Registry.remove` — sessions come and go
* `Registry.join`, `Registry.leave` — members come and go
* `Registry.drain` — all sessions go, and none comes any more
-/

namespace RoomRelay

/-- Sessions, identities, rooms and members. -/
structure Registry where
  /-- The session of each identity. -/
  byUser : Table String SessionId := {}
  /-- The sessions by their identifiers. -/
  sessions : Table SessionId Session := {}
  /-- The members of each room. -/
  rooms : Table String (FinSet SessionId) := {}
  /-- The rooms of each session. -/
  joined : Table SessionId (FinSet String) := {}
  /-- No session is admitted any more. -/
  closed : Bool := false
  deriving Inhabited

namespace Registry

/-- The session of an identity. -/
def current (r : Registry) (userId : String) : Option SessionId := r.byUser.get? userId

/-- A session is registered. -/
def contains (r : Registry) (id : SessionId) : Bool := r.sessions.contains id

/-- The members of a room. -/
def memberIds (r : Registry) (roomId : String) : List SessionId :=
  ((r.rooms.get? roomId).getD {}).toList

/-- The sessions that are members of a room. -/
def members (r : Registry) (roomId : String) : List Session :=
  (r.memberIds roomId).filterMap r.sessions.get?

/-- The rooms of a session. -/
def roomsOf (r : Registry) (id : SessionId) : List String := ((r.joined.get? id).getD {}).toList

/-- The number of registered sessions. -/
def sessionCount (r : Registry) : Nat := r.sessions.size

/-- The number of rooms with a member. -/
def roomCount (r : Registry) : Nat := r.rooms.size

/-- Puts a set into a table, or takes its key out if the set is empty. -/
def store [DecidableEq κ] (t : Table κ (FinSet α)) (key : κ) (s : FinSet α) :
    Table κ (FinSet α) :=
  if s.isEmpty then t.erase key else t.insert key s

/-- Takes a session out of the members of a room. -/
def detach (r : Registry) (id : SessionId) (roomId : String) : Registry :=
  match r.rooms.get? roomId with
  | some members => { r with rooms := store r.rooms roomId (members.erase id) }
  | none => r

/-- The registry without an identity, if the session is the one of that identity. -/
def forget (r : Registry) (session : Session) : Registry :=
  if r.current session.userId = some session.id then
    { r with byUser := r.byUser.erase session.userId }
  else r

/-- Takes a session out of all tables; `none` if it is not registered. -/
def remove (r : Registry) (id : SessionId) : Option (Session × Registry) :=
  (r.sessions.get? id).map fun session =>
    let known : Registry := { r with sessions := r.sessions.erase id, joined := r.joined.erase id }
    (session, (r.roomsOf id).foldl (·.detach id) (known.forget session))

/-- Another session that is registered for the identity. -/
def rival? (r : Registry) (session : Session) : Option SessionId :=
  (r.current session.userId).filter (· ≠ session.id)

/-- The registry with a session as the one of its identity, whatever was there before. -/
def enter (r : Registry) (session : Session) : Registry :=
  { r with
    byUser := r.byUser.insert session.userId session.id
    sessions := r.sessions.insert session.id session }

/-- Registers a session as the one of its identity. Another one is taken out first and returned. -/
def insert (r : Registry) (session : Session) : Option Session × Registry :=
  match r.rival? session >>= r.remove with
  | some (evicted, rest) => (some evicted, rest.enter session)
  | none => (none, r.enter session)

/-- Makes a registered session a member of a room, and says whether it was none before. -/
def join (r : Registry) (id : SessionId) (roomId : String) : Bool × Registry :=
  if r.contains id then
    let members := (r.rooms.get? roomId).getD {}
    let rooms := (r.joined.get? id).getD {}
    (id ∉ members,
      { r with
        rooms := r.rooms.insert roomId (members.insert id)
        joined := r.joined.insert id (rooms.insert roomId) })
  else (false, r)

/-- Takes a member out of a room, and says whether it was one. -/
def leave (r : Registry) (id : SessionId) (roomId : String) : Bool × Registry :=
  match r.joined.get? id with
  | none => (false, r)
  | some rooms =>
    if roomId ∈ rooms then
      (true, detach { r with joined := store r.joined id (rooms.erase roomId) } id roomId)
    else (false, r)

/-- Takes all sessions out of all tables and admits none any more. -/
def drain (r : Registry) : List Session × Registry :=
  (r.sessions.values, { closed := true })

end Registry

end RoomRelay
