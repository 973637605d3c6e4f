/-!
# Media types

The kind of a body is given as a type and a subtype, perhaps with a suffix after the last `+`, and
parameters. Names have no upper and lower case.

## Main definitions

* `MediaType.parse?` — the type that a header gives
* `MediaType.isJson` — it says that the body is JSON
-/

namespace RoomRelay

/-- The kind of a body, in lower case. -/
structure MediaType where
  /-- The type. -/
  main : List Char
  /-- The subtype, up to the last `+`. -/
  sub : List Char
  /-- What follows the last `+`. -/
  suffix : Option (List Char) := none
  deriving DecidableEq

namespace MediaType

/-- The character can stand in a name. -/
def isToken (c : Char) : Bool := c.isAlphanum || c ∈ "!#$%&'+-.^_`|~".toList

/-- The character can stand between quotes; a quote itself only in the first place. -/
def isQuotable (c : Char) : Bool := 32 ≤ c.toNat && c.toNat < 127

/-- What a reader of parameters is at. -/
inductive Place
  /-- Before a name. -/
  | between
  /-- In a name. -/
  | name
  /-- Right after `=`. -/
  | equals
  /-- In a value. -/
  | value
  /-- Right after the first quote of a value. -/
  | opened
  /-- In a value between quotes. -/
  | quoted
  /-- After a value between quotes. -/
  | closed
  deriving DecidableEq

/-- What a reader of parameters is at after a character, if the character can stand there. -/
def Place.next? (c : Char) : Place → Option Place
  | between => if c = ' ' then some between else if isToken c then some name else none
  | name => if c = '=' then some equals else if isToken c then some name else none
  | equals => if c = '"' then some opened else if isToken c then some value else none
  | value => if c = ';' then some between else if isToken c then some value else none
  | opened => if isQuotable c then some quoted else none
  | quoted => if c = '"' then some closed else if isQuotable c then some quoted else none
  | closed => if c = ';' then some between else if c = ' ' then some closed else none

/-- Parameters can end here. -/
def Place.canEnd : Place → Bool
  | between | equals | value | closed => true
  | name | opened | quoted => false

/-- The characters are parameters. -/
def areParameters (cs : List Char) : Bool :=
  match cs.foldlM (fun place c => place.next? c) Place.between with
  | some place => place.canEnd
  | none => false

/-- A subtype, parted at its last `+` unless that comes first. -/
def ofSubtype (main : List Char) (cs : List Char) : MediaType :=
  match cs with
  | [] => ⟨main, [], none⟩
  | first :: rest =>
    if '+' ∈ rest then
      let suffix := (rest.reverse.takeWhile (· ≠ '+')).reverse
      ⟨main, first :: rest.take (rest.length - suffix.length - 1), some suffix⟩
    else ⟨main, first :: rest, none⟩

/-- The type that a header gives, if it gives one. -/
def parse? (text : String) : Option MediaType :=
  let cs := text.toList.map Char.toLower
  let main := cs.takeWhile isToken
  match cs.dropWhile isToken with
  | '/' :: rest =>
    let sub := rest.takeWhile isToken
    if main = [] ∨ sub = [] then none
    else
      match rest.dropWhile isToken with
      | [] => some (ofSubtype main sub)
      | c :: parameters =>
        if (c = ';' ∨ c = ' ') ∧ areParameters parameters then some (ofSubtype main sub) else none
  | _ => none

/-- The body is JSON. -/
def isJson (m : MediaType) : Bool :=
  m.main = "application".toList && (m.sub = "json".toList || m.suffix = some "json".toList)

end MediaType

end RoomRelay
