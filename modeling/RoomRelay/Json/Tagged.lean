import RoomRelay.Json.Record

/-!
# Tagged values

A tagged value is an object with two keys that matter, a tag and a content, in either order. The tag
is a word that says which shape the content has. If the content comes first, it is read as it
stands and decoded once the tag is known. A tagged value may also be an array of the two.

## Main definitions

* `Json.Tagged` — the keys, the words, and the shape for each word
* `Json.Tagged.read` — reads a tagged value
-/

namespace RoomRelay.Json

/-- Values of type `α` tagged by words that stand for a `κ`. -/
structure Tagged (κ α : Type) where
  /-- The form that messages ask for. -/
  form : String
  /-- The key of the tag. -/
  tagKey : String
  /-- The key of the content. -/
  contentKey : String
  /-- The words. -/
  choice : Choice κ
  /-- The shape of the content for each word. -/
  shape : κ → Shape α

/-- One of the two keys that matter. -/
inductive Part
  | tag
  | content
  deriving DecidableEq

namespace Tagged

variable {κ α : Type}

/-- The part that a key names. -/
def part? (t : Tagged κ α) (key : String) : Option Part :=
  if key = t.tagKey then some .tag else if key = t.contentKey then some .content else none

/-- The key of a part. -/
def key (t : Tagged κ α) : Part → String
  | .tag => t.tagKey
  | .content => t.contentKey

/-- The next key that matters, with its colon still to come; fields of other keys are skipped. Each
turn takes a symbol, so the length of the input bounds the number of turns. -/
def nextPart (t : Tagged κ α) : (turns : Nat) → (first : Bool) → Reader (Option Part)
  | 0, _ => fail .endInObject
  | turns + 1, first => do
    match ← nextKey first with
    | none => return none
    | some key =>
      match t.part? key with
      | some part => return some part
      | none =>
        colon
        skipValue
        t.nextPart turns false

/-- Skips what remains of the object; neither key may come again. -/
def noMore (t : Tagged κ α) : Reader Unit := do
  match ← t.nextPart ((← get).length + 1) false with
  | none => return ()
  | some part => fail (.duplicateField (t.key part))

/-- The tag after its key. -/
def readTag (t : Tagged κ α) (depth : Nat) : Reader κ := colon *> t.choice.read depth

/-- The second of the two keys that matter, which must be the given one. -/
def second (t : Tagged κ α) (wanted : Part) : Reader Unit := do
  match ← t.nextPart ((← get).length + 1) false with
  | none => fail (.missingField (t.key wanted))
  | some part => if part = wanted then return () else fail (.duplicateField (t.key part))

/-- Reads the inside of an object, up to its closing brace. -/
def readObject (t : Tagged κ α) (depth : Nat) : Reader α := do
  match ← t.nextPart ((← get).length + 1) true with
  | none => fail (.missingField t.tagKey)
  | some .tag =>
    let k ← t.readTag depth
    t.second .content
    let x ← colon *> (t.shape k).read depth
    t.noMore
    return x
  | some .content =>
    let v ← colon *> value depth
    t.second .tag
    let k ← t.readTag depth
    let x ← liftM ((t.shape k).decode v)
    t.noMore
    return x

/-- Reads the inside of an array, up to its closing bracket. -/
def readArray (t : Tagged κ α) (depth : Nat) : Reader α := do
  if ← nextItem true then
    let k ← liftM (t.choice.find (← Choice.identifier))
    if ← nextItem false then (t.shape k).read depth
    else fail (.wrongLength 1 t.form)
  else fail (.wrongLength 0 t.form)

/-- Reads a tagged value. -/
def read (t : Tagged κ α) : (depth : Nat) → Reader α
  | 0 => fail .tooDeep
  | inner + 1 => do
    match ← blanks with
    | some (some '\x7b') =>
      advance
      t.readObject inner <* closeObject
    | some (some '[') =>
      advance
      t.readArray inner <* closeList
    | _ => wanted t.form

end Tagged

end RoomRelay.Json
