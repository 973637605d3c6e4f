import RoomRelay.Failure
import RoomRelay.Room

/-!
# Rows of a database

A database keeps kinds and roles as words, so that a row need not denote anything; a word that
stands for nothing is a failure of the database.

## Main definitions

* `MessageRow.message`, `MemberRow.member`, `RoomRow.room` — what rows denote
-/

namespace RoomRelay

/-- What a word stands for, or a failure of the database. -/
def ofColumn (parsed : Except String α) : Except DomainFailure α := parsed.mapError .database

/-- A row for a message. -/
structure MessageRow where
  /-- The identifier. -/
  id : Uuid
  /-- The room. -/
  roomId : Uuid
  /-- The sender. -/
  senderId : String
  /-- The text. -/
  content : String
  /-- The word for the kind. -/
  kind : String
  /-- What is attached. -/
  metadata : Option Json.Value
  /-- When it was stored. -/
  createdAt : Timestamp
  /-- When it was last changed. -/
  updatedAt : Timestamp

/-- The message that a row denotes. -/
def MessageRow.message (row : MessageRow) : Except DomainFailure Message := do
  let kind ← ofColumn (MessageKind.parse row.kind)
  return { row with kind }

/-- A row for a member of a room. -/
structure MemberRow where
  /-- The room. -/
  roomId : Uuid
  /-- The identity. -/
  userId : String
  /-- The word for the role. -/
  role : String
  /-- Since when. -/
  joinedAt : Timestamp

/-- The member that a row denotes. -/
def MemberRow.member (row : MemberRow) : Except DomainFailure Member := do
  let role ← ofColumn (MemberRole.parse row.role)
  return { row with role }

/-- A row for a room. -/
structure RoomRow where
  /-- The identifier. -/
  id : Uuid
  /-- The name. -/
  name : String
  /-- The word for the kind. -/
  kind : String
  /-- Where its picture is. -/
  avatarUrl : Option String
  /-- The identity that made it. -/
  createdBy : String
  /-- When it was made. -/
  createdAt : Timestamp
  /-- When it was last active. -/
  updatedAt : Timestamp

/-- The room that a row and the rows of its members denote; the room's own row is looked at
first. -/
def RoomRow.room (row : RoomRow) (members : List MemberRow) : Except DomainFailure Room := do
  let kind ← ofColumn (RoomKind.parse row.kind)
  let members ← members.mapM MemberRow.member
  return { row with kind, members }

end RoomRelay
