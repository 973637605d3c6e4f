import RoomRelay.Gateway.Routine

/-!
# Stores that are slow or fail

The calls to the stores can be hindered, each kind of call on its own: such calls take a while, or
fail, or both.

## Main definitions

* `CallKind`, `CallKind.named?`, `Call.kind?` — the kinds of calls that can be hindered
* `Obstacle` — how calls of a kind are hindered
-/

namespace RoomRelay

/-- The kinds of calls to the stores. -/
inductive CallKind
  | createMessage
  | findMessages
  | createRoom
  | findRoom
  | roomsOf
  | membersOf
  | touchRoom
  | setOnline
  | setOffline
  | isOnline
  | addTyping
  | removeTyping
  | listTyping
  deriving DecidableEq

namespace CallKind

/-- All kinds. -/
def all : List CallKind :=
  [.createMessage, .findMessages, .createRoom, .findRoom, .roomsOf, .membersOf, .touchRoom,
    .setOnline, .setOffline, .isOnline, .addTyping, .removeTyping, .listTyping]

/-- The name, which starts with the store. -/
def name : CallKind → String
  | createMessage => "messages.create"
  | findMessages => "messages.find_by_room"
  | createRoom => "rooms.create"
  | findRoom => "rooms.find_by_id"
  | roomsOf => "rooms.find_by_user"
  | membersOf => "rooms.members"
  | touchRoom => "rooms.touch"
  | setOnline => "presence.set_online"
  | setOffline => "presence.set_offline"
  | isOnline => "presence.is_online"
  | addTyping => "presence.add_typing"
  | removeTyping => "presence.remove_typing"
  | listTyping => "presence.list_typing"

/-- The kind with a name. -/
def named? (word : String) : Option CallKind := all.find? fun kind => kind.name = word

end CallKind

/-- The kind of a call to the stores of rooms and messages. -/
def StoreCall.kind : StoreCall → CallKind
  | createMessage _ => .createMessage
  | findMessages _ _ _ => .findMessages
  | createRoom _ _ => .createRoom
  | findRoom _ => .findRoom
  | roomsOf _ => .roomsOf
  | membersOf _ => .membersOf
  | touch _ => .touchRoom

/-- The kind of a call to the presence store. -/
def PresenceCall.kind : PresenceCall → CallKind
  | setOnline _ => .setOnline
  | setOffline _ => .setOffline
  | isOnline _ => .isOnline
  | addTyping _ _ => .addTyping
  | removeTyping _ _ => .removeTyping
  | listTyping _ => .listTyping

/-- The kind of a call; a step on the hub has none. -/
def Call.kind? : Call → Option CallKind
  | storage call => some call.kind
  | presence call => some call.kind
  | _ => none

/-- How calls of a kind are hindered. -/
structure Obstacle where
  /-- How long they take, in milliseconds. -/
  delay : Nat := 0
  /-- Why they fail. -/
  reason : Option String := none
  deriving DecidableEq, Inhabited

end RoomRelay
