import RoomRelay.Gateway.Routine

/-!
# Sessions come and go

A session is registered and taken out in one step each, but the marker of its identity is set and
cleared in steps of their own, so that other sessions of the same identity may come in between. A
marker that was cleared is therefore looked at again: if the identity has a session by then, the
marker is set once more. A marker that cannot be changed is noted and nothing else.

## Main definitions

* `register`, `unregister`, `shutdown` — sessions come and go
* `joinRoom`, `leaveRoom`, `broadcast` — single steps that are noted
-/

namespace RoomRelay

open Routine

/-- Asks the presence store for a change that may fail. -/
def tryMark (call : PresenceCall) (failed : Note) : Routine Unit := do
  match ← ask (.presence call) with
  | .ok _ => return ()
  | .error _ => note failed

/-- Sets the marker of an identity. -/
def markOnline (userId : String) : Routine Unit := tryMark (.setOnline userId) .onlineMarkerFailed

/-- Clears the marker of an identity. -/
def markOffline (userId : String) : Routine Unit :=
  tryMark (.setOffline userId) .offlineMarkerFailed

/-- Registers a session as the one of its identity, and says whether that was possible. -/
def register (session : Session) : Routine Bool := do
  match ← ask (.enroll session) with
  | .refused =>
    note .sessionRefused
    return false
  | .admitted evicted =>
    if evicted.isSome then note .sessionReplaced
    markOnline session.userId
    note .sessionRegistered
    return true

/-- Clears the marker of an identity, unless it has a session by then. -/
def clearMarker (userId : String) : Routine Unit := do
  markOffline userId
  if ← ask (.isPresent userId) then markOnline userId

/-- Takes a session out, and says whether it was there. -/
def unregister (session : Session) : Routine Bool := do
  let outcome ← ask (.withdraw session)
  if outcome.removed then note .sessionUnregistered
  if !outcome.superseded then clearMarker session.userId
  return outcome.removed

/-- Makes a session a member of a room, and says whether it was none before. -/
def joinRoom (session : Session) (roomId : String) : Routine Bool := do
  let joined ← ask (.join session.id roomId)
  note .roomJoined
  return joined

/-- Takes a session out of a room, and says whether it was a member. -/
def leaveRoom (session : Session) (roomId : String) : Routine Bool := do
  let left ← ask (.leave session.id roomId)
  note .roomLeft
  return left

/-- Notes the same thing several times. -/
def noteTimes (n : Note) : (count : Nat) → Routine Unit
  | 0 => return ()
  | count + 1 => do
    note n
    noteTimes n count

/-- Sends a frame to the members of a room. -/
def broadcast (envelope : Envelope) : Routine BroadcastReport := do
  let report ← ask (.broadcast envelope)
  noteTimes .queueOverflow report.overflowed
  return report

/-- Clears the markers of some identities, one after the other. -/
def markAllOffline : List String → Routine Unit
  | [] => return ()
  | userId :: rest => do
    markOffline userId
    markAllOffline rest

/-- Closes all sessions for good, and says how many there were. -/
def shutdown : Routine Nat := do
  let sessions ← ask .drain
  markAllOffline (sessions.map (·.userId)).eraseDups
  note .hubShutDown
  return sessions.length

end RoomRelay
