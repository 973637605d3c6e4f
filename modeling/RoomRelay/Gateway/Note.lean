import RoomRelay.Config

/-!
# Notes in the log

The hub and the handlers of commands note what they do, each note with a level and a fixed text.

## Main definitions

* `Note`, `Note.level`, `Note.text`
-/

namespace RoomRelay

/-- What the hub and the handlers note. -/
inductive Note
  | sessionRefused
  | sessionReplaced
  | sessionRegistered
  | sessionUnregistered
  | roomJoined
  | roomLeft
  | queueOverflow
  | hubShutDown
  | onlineMarkerFailed
  | offlineMarkerFailed
  | frameDiscarded
  | commandRejected
  | commandFailed
  | messageBroadcast
  | typingMarkerFailed
  deriving DecidableEq

namespace Note

/-- How important a note is. -/
def level : Note → LogLevel
  | sessionRefused | roomJoined | roomLeft | frameDiscarded | commandRejected
  | messageBroadcast => .debug
  | sessionReplaced | sessionRegistered | sessionUnregistered | hubShutDown => .info
  | queueOverflow | onlineMarkerFailed | offlineMarkerFailed | commandFailed
  | typingMarkerFailed => .warn

/-- The text of a note. -/
def text : Note → String
  | sessionRefused => "Hub shut down, session refused"
  | sessionReplaced => "Replaced existing session"
  | sessionRegistered => "Session registered"
  | sessionUnregistered => "Session unregistered"
  | roomJoined => "Join room"
  | roomLeft => "Leave room"
  | queueOverflow => "Outbound queue overflow, session torn down"
  | hubShutDown => "Hub shut down"
  | onlineMarkerFailed => "Failed to set user online"
  | offlineMarkerFailed => "Failed to set user offline"
  | frameDiscarded => "Discarding undecodable frame"
  | commandRejected => "Command rejected"
  | commandFailed => "Command failed"
  | messageBroadcast => "Message broadcast"
  | typingMarkerFailed => "Failed to update typing marker"

end Note

end RoomRelay
