import RoomRelay.Config
import RoomRelay.Failure
import RoomRelay.HostAddress
import RoomRelay.Presence.Address

/-!
# Getting ready

Before a server can serve it needs a store of messages, a store of rooms and a presence store. The
first two are in memory; presence is in memory too, or on a key server that the configuration names.

## Main definitions

* `PresenceBackend`, `Config.presenceBackend` — where presence is kept
* `Config.checkHost` — where a server can listen
* `ServiceParts`, `ServiceParts.assemble` — what the services work on
* `LoggingFault` — why logging cannot be set up a second time
-/

namespace RoomRelay

/-- Where presence is kept. -/
inductive PresenceBackend
  | memory
  | keyServer (pool : CachePool)
  deriving DecidableEq

/-- Where presence is kept under a configuration. A database cannot be reached from here, so that a
configuration with one fails before anything else is looked at. -/
def Config.presenceBackend (config : Config) : Except AppFailure PresenceBackend :=
  if config.database.isSome then .error (.database "no database can be reached")
  else
    match config.cache with
    | none => .ok .memory
    | some cache =>
      if CacheAddress.isUsable cache.url then .ok (.keyServer cache.pool)
      else .error (.cache "Failed to create Redis pool: Invalid URL")

/-- A server listens at an address of this machine; a name of another one is not looked up. -/
def Config.checkHost (config : Config) : Except AppFailure Unit :=
  if HostAddress.isLocal config.server.host then .ok ()
  else .error (.config ("Failed to bind to " ++ config.server.address))

/-- The stores that have been given so far. -/
structure ServiceParts (μ ρ π : Type) where
  /-- The store of messages. -/
  messages : Option μ := none
  /-- The store of rooms. -/
  rooms : Option ρ := none
  /-- The presence store. -/
  presence : Option π := none

/-- A part that must be given. -/
def ServiceParts.need (name : String) : Option α → Except ServiceFailure α
  | some part => .ok part
  | none => .error (.validation (name ++ " is required"))

/-- All three stores, or the first that is missing. -/
def ServiceParts.assemble {μ ρ π : Type} (parts : ServiceParts μ ρ π) :
    Except ServiceFailure (μ × ρ × π) := do
  let messages ← need "message_repo" parts.messages
  let rooms ← need "room_repo" parts.rooms
  let presence ← need "presence" parts.presence
  return (messages, rooms, presence)

/-- The stores for people, who are not shown what they hold. -/
def servicesText : String :=
  "ServiceContext \x7b repositories: \"...\", presence: \"...\" \x7d"

/-- Why logging cannot be set up a second time. -/
inductive LoggingFault
  | alreadyInitialized
  deriving DecidableEq

/-- The wording. -/
def LoggingFault.message : LoggingFault → String
  | alreadyInitialized => "Tracing subscriber already initialized"

end RoomRelay
