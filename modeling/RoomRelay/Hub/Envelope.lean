import RoomRelay.Json.Printer
import RoomRelay.Session

/-!
# Frames for a room

A broadcast sends one frame to every member of a room, except perhaps the session that caused it.

## Main definitions

* `Envelope` — a frame with the room it is for
* `BroadcastReport` — how many members it reached, and how many it did not
-/

namespace RoomRelay

/-- A frame for the members of one room. -/
structure Envelope where
  /-- The key of the room. -/
  roomId : String
  /-- The frame. -/
  frame : Frame
  /-- A session that does not get it. -/
  exclude : Option SessionId := none
  deriving DecidableEq

/-- The frame of a document. -/
def Envelope.ofDocument (roomId : String) (payload : Json.Value) : Envelope :=
  { roomId, frame := payload.render }

/-- What became of a broadcast. -/
structure BroadcastReport where
  /-- Members whose queue took the frame. -/
  delivered : Nat := 0
  /-- Members whose queue was full. -/
  overflowed : Nat := 0
  /-- Members whose queue was closed. -/
  unreachable : Nat := 0
  deriving DecidableEq

/-- Members that did not get the frame. -/
def BroadcastReport.dropped (report : BroadcastReport) : Nat :=
  report.overflowed + report.unreachable

end RoomRelay
