import RoomRelay.Message

/-!
# Rooms and their members

A room has a name and members, one of whom made it and administers it. A direct room is for two.

## Main definitions

* `RoomKind`, `MemberRole` — with their words
* `Member`, `Room`, `Room.hasMember`, `Room.isDirect`
* `RoomPlan`, `RoomPlan.roleFor` — a room that is yet to be stored
* `Room.response`, `Member.response` — rooms and members as documents
-/

namespace RoomRelay

/-- Whom a room is for. -/
inductive RoomKind
  | direct
  | group
  deriving DecidableEq, Inhabited

namespace RoomKind

/-- The words for the kinds. -/
def words : List (String × RoomKind) := [("direct", direct), ("group", group)]

/-- The word for a kind. -/
def name : RoomKind → String
  | direct => "direct"
  | group => "group"

/-- The kind that a word names in any case. -/
def parse (word : String) : Except String RoomKind :=
  match lookupWord words word with
  | some kind => .ok kind
  | none => .error ("Invalid room kind: " ++ word)

/-- The words as they are accepted in a document, in lower case only. -/
def choice : Json.Choice RoomKind := ⟨words⟩

end RoomKind

/-- What a member may do. -/
inductive MemberRole
  | admin
  | member
  deriving DecidableEq

namespace MemberRole

/-- A member administers nothing unless said otherwise. -/
instance : Inhabited MemberRole := ⟨member⟩

/-- The words for the roles. -/
def words : List (String × MemberRole) := [("admin", admin), ("member", member)]

/-- The word for a role. -/
def name : MemberRole → String
  | admin => "admin"
  | member => "member"

/-- The role that a word names in any case. -/
def parse (word : String) : Except String MemberRole :=
  match lookupWord words word with
  | some role => .ok role
  | none => .error ("Invalid member role: " ++ word)

/-- The words as they are accepted in a document, in lower case only. -/
def choice : Json.Choice MemberRole := ⟨words⟩

end MemberRole

/-- A member of a room. -/
structure Member where
  /-- The room. -/
  roomId : Uuid
  /-- The identity. -/
  userId : String
  /-- What the member may do. -/
  role : MemberRole
  /-- Since when. -/
  joinedAt : Timestamp
  deriving DecidableEq

/-- The member as a document. -/
def Member.response (m : Member) : Json.Value :=
  .object [("userId", .string m.userId), ("role", .string m.role.name),
    ("joinedAt", .string m.joinedAt.render)]

/-- A room that is yet to be stored. -/
structure RoomPlan where
  /-- The name. -/
  name : String
  /-- Whom it is for. -/
  kind : RoomKind
  /-- The identity that makes it. -/
  createdBy : String

/-- Whoever makes a room administers it. -/
def RoomPlan.roleFor (plan : RoomPlan) (userId : String) : MemberRole :=
  if userId = plan.createdBy then .admin else .member

/-- A stored room. -/
structure Room where
  /-- Its identifier. -/
  id : Uuid
  /-- The name. -/
  name : String
  /-- Whom it is for. -/
  kind : RoomKind
  /-- Where its picture is. -/
  avatarUrl : Option String
  /-- The identity that made it. -/
  createdBy : String
  /-- When it was made. -/
  createdAt : Timestamp
  /-- When it was last active. -/
  updatedAt : Timestamp
  /-- Its members in the order in which they joined. -/
  members : List Member
  deriving DecidableEq

namespace Room

/-- An identity is among the members, spelt exactly so. -/
def hasMember (room : Room) (userId : String) : Bool := room.members.any (·.userId = userId)

/-- The room is for two. -/
def isDirect (room : Room) : Bool := room.kind = .direct

/-- The room as a document. -/
def response (room : Room) : Json.Value :=
  .object (
    [("id", .string room.id.toString), ("name", .string room.name),
     ("kind", .string room.kind.name)] ++
    (room.avatarUrl.toList.map fun url => ("avatarUrl", Json.Value.string url)) ++
    [("createdBy", .string room.createdBy), ("createdAt", .string room.createdAt.render),
     ("updatedAt", .string room.updatedAt.render),
     ("members", .array (room.members.map Member.response))])

end Room

end RoomRelay
