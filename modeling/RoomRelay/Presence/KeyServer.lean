import RoomRelay.Table

/-!
# A key server

A key server keeps values under keys: texts and sets of texts. A key disappears when its time to
live has fully passed, or when its set becomes empty.

## Main definitions

* `KeyServer` — keys, values and when they lapse
* `KeyCommand` — commands, and the words that spell them
* `KeyServer.Reply` — the form of a reply
* `KeyServer.execute` — what a server does and replies
-/

namespace RoomRelay

/-- A command for a key server. -/
inductive KeyCommand
  /-- To keep a text under a key. -/
  | set (key value : String)
  /-- To forget a key. -/
  | del (key : String)
  /-- Whether there is a key. -/
  | exists (key : String)
  /-- To add an element to a set. -/
  | sadd (key element : String)
  /-- To let a key live for so many seconds from now on. -/
  | expire (key : String) (seconds : Nat)
  /-- To take an element out of a set. -/
  | srem (key element : String)
  /-- The elements of a set. -/
  | smembers (key : String)
  /-- Whether the server is there. -/
  | ping
  deriving DecidableEq

/-- The words of a command. -/
def KeyCommand.words : KeyCommand → List String
  | set key value => ["SET", key, value]
  | del key => ["DEL", key]
  | .exists key => ["EXISTS", key]
  | sadd key element => ["SADD", key, element]
  | expire key seconds => ["EXPIRE", key, toString seconds]
  | srem key element => ["SREM", key, element]
  | smembers key => ["SMEMBERS", key]
  | ping => ["PING"]

/-- A value under a key. -/
inductive KeyValue
  | text (value : String)
  | set (elements : FinSet String)

/-- A value with the time at which it lapses, in milliseconds, if it does. -/
structure KeyEntry where
  /-- The value. -/
  value : KeyValue
  /-- When it lapses. -/
  lapses : Option Nat := none

/-- Keys with what they hold. -/
structure KeyServer where
  /-- The keys. -/
  entries : Table String KeyEntry := {}
  deriving Inhabited

namespace KeyServer

/-- A reply. -/
inductive Reply
  | null
  | integer (value : Int)
  | text (value : String)
  | failure (message : String)
  | list (items : List Reply)
  deriving Inhabited

/-- What a key holds at a time. -/
def get? (s : KeyServer) (now : Nat) (key : String) : Option KeyEntry :=
  (s.entries.get? key).filter fun entry => entry.lapses.all (now < ·)

/-- The number of a truth value. -/
def count (b : Bool) : Reply := .integer (if b then 1 else 0)

/-- The failure of a command for sets on a key that holds a text. -/
def wrongKind : Reply :=
  .failure "WRONGTYPE Operation against a key holding the wrong kind of value"

/-- The server with the elements of a set replaced; an empty set goes. -/
def putSet (s : KeyServer) (key : String) (entry : KeyEntry) (elements : FinSet String) :
    KeyServer :=
  if elements.isEmpty then ⟨s.entries.erase key⟩
  else ⟨s.entries.insert key { entry with value := .set elements }⟩

/-- Executes a command at a time. -/
def execute (s : KeyServer) (now : Nat) : KeyCommand → Reply × KeyServer
  | .set key value => (.text "OK", ⟨s.entries.insert key { value := .text value }⟩)
  | .del key => (count (s.get? now key).isSome, ⟨s.entries.erase key⟩)
  | .exists key => (count (s.get? now key).isSome, s)
  | .sadd key element =>
    match s.get? now key with
    | none => (count true, ⟨s.entries.insert key { value := .set (.insert {} element) }⟩)
    | some entry =>
      match entry.value with
      | .text _ => (wrongKind, s)
      | .set elements =>
        (count (element ∉ elements), s.putSet key entry (elements.insert element))
  | .expire key seconds =>
    match s.get? now key with
    | none => (count false, s)
    | some entry =>
      (count true, ⟨s.entries.insert key { entry with lapses := some (now + seconds * 1000) }⟩)
  | .srem key element =>
    match s.get? now key with
    | none => (count false, s)
    | some entry =>
      match entry.value with
      | .text _ => (wrongKind, s)
      | .set elements => (count (element ∈ elements), s.putSet key entry (elements.erase element))
  | .smembers key =>
    match s.get? now key with
    | none => (.list [], s)
    | some entry =>
      match entry.value with
      | .text _ => (wrongKind, s)
      | .set elements => (.list (elements.toList.map .text), s)
  | .ping => (.text "PONG", s)

/-- Executes commands one after the other without others in between. -/
def executeAll (s : KeyServer) (now : Nat) : List KeyCommand → List Reply × KeyServer
  | [] => ([], s)
  | command :: rest =>
    match s.execute now command with
    | (reply, s) =>
      match s.executeAll now rest with
      | (replies, s) => (reply :: replies, s)

end KeyServer

end RoomRelay
