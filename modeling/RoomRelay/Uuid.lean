import RoomRelay.Text.Hex

/-!
# Identifiers of 128 bits

Rooms, messages and sessions carry a universally unique identifier. It is held as its 32
hexadecimal digits, written in five groups joined by hyphens in lower case, and read from four
spellings in which the digits may stand in either case.

## Main definitions

* `Uuid`, `Uuid.nil`, `Uuid.version4` — the type, the identifier zero, and the identifiers that are
  handed out, one for each serial number
* `Uuid.toString` — the hyphenated spelling in lower case
* `Uuid.parse?` — reads the hyphenated, plain, braced and `urn:uuid:` spellings
* `Uuid.Fault`, `Uuid.fault` — what is wrong with a text that is none of them
-/

namespace RoomRelay

/-- An identifier of 128 bits, given by its hexadecimal digits, most significant first. -/
structure Uuid where
  /-- The digits. -/
  digits : List (Fin 16)
  /-- There are 32 of them. -/
  length_digits : digits.length = 32
  deriving DecidableEq

namespace Uuid

/-- The identifier whose digits are all zero. -/
def nil : Uuid := ⟨Hex.digits 32 0, Hex.length_digits 32 0⟩

instance : Inhabited Uuid := ⟨nil⟩

/-- The number that the digits denote. -/
def toNat (id : Uuid) : Nat := Hex.ofDigits id.digits

/-- The sizes of the five groups. -/
def groupSizes : List Nat := [8, 4, 4, 4, 12]

/-- The items in groups of the given sizes, with `separator` between two groups. -/
def grouped (separator : α) : List Nat → List α → List α
  | [], items => items
  | [_], items => items
  | size :: sizes, items =>
    items.take size ++ separator :: grouped separator sizes (items.drop size)

/-- Takes the separators out of groups of the given sizes; `none` if they do not stand there. -/
def ungrouped? [DecidableEq α] (separator : α) : List Nat → List α → Option (List α)
  | [], items => if items = [] then some [] else none
  | [size], items => if items.length = size then some items else none
  | size :: sizes, items =>
    if items.length < size then none
    else match items.drop size with
      | mark :: rest =>
        if mark = separator then (ungrouped? separator sizes rest).map (items.take size ++ ·)
        else none
      | [] => none

/-- The characters of the hyphenated spelling in lower case. -/
def toChars (id : Uuid) : List Char := grouped '-' groupSizes (id.digits.map Hex.char)

/-- The hyphenated spelling in lower case. -/
protected def toString (id : Uuid) : String := String.ofList id.toChars

instance : ToString Uuid := ⟨Uuid.toString⟩

/-- The identifier with the given digits, if there are 32. -/
def ofDigits? (ds : List (Fin 16)) : Option Uuid :=
  if h : ds.length = 32 then some ⟨ds, h⟩ else none

/-- Reads 32 digits without separators. -/
def ofPlain? (cs : List Char) : Option Uuid := cs.mapM Hex.digit? >>= ofDigits?

/-- Reads the five groups joined by hyphens. -/
def ofHyphenated? (cs : List Char) : Option Uuid := ungrouped? '-' groupSizes cs >>= ofPlain?

/-- The characters in front of an identifier that is written as a resource name. -/
def urnMark : List Char := "urn:uuid:".toList

/-- What stands between braces that enclose the whole text. -/
def unbraced? : List Char → Option (List Char)
  | '\x7b' :: rest => if rest.getLast? = some '\x7d' then some rest.dropLast else none
  | _ => none

/-- What stands after the mark of a resource name, which may be in either case. -/
def afterUrn? (cs : List Char) : Option (List Char) :=
  if (cs.take urnMark.length).map Char.toLower = urnMark then some (cs.drop urnMark.length)
  else none

/-- Reads the plain, the hyphenated, the braced and the resource-name spelling. -/
def ofChars? (cs : List Char) : Option Uuid :=
  ofPlain? cs <|> ofHyphenated? cs <|> (unbraced? cs >>= ofHyphenated?) <|>
    (afterUrn? cs >>= ofHyphenated?)

/-- Reads an identifier in any of its four spellings. -/
def parse? (text : String) : Option Uuid := ofChars? text.toList

/-- What is wrong with a text that spells no identifier. -/
inductive Fault
  /-- A character that is neither a digit nor a hyphen, and the byte at which it starts. -/
  | character (c : Char) (index : Nat)
  /-- Only digits, but not as many as needed. -/
  | length (found : Nat)
  /-- Not five groups. -/
  | groupCount (found : Nat)
  /-- A group of the wrong size. -/
  | groupLength (group expected found : Nat)
  deriving DecidableEq

namespace Fault

/-- The wording of the fault. -/
def message : Fault → String
  | character c index => "invalid character: found `" ++ c.toString ++ "` at " ++ toString index
  | length found => "invalid length: found " ++ toString found
  | groupCount found => "invalid group count: expected 5, found " ++ toString found
  | groupLength group expected found =>
    "invalid group length in group " ++ toString group ++ ": expected " ++ toString expected ++
      ", found " ++ toString found

end Fault

/-- The number of bytes of some characters. -/
def byteCount (cs : List Char) : Nat := cs.foldl (fun n c => n + c.utf8Size) 0

/-- The first character that is neither a digit nor a hyphen, with the byte at which it starts. -/
def foreign? : (start : Nat) → List Char → Option (Char × Nat)
  | _, [] => none
  | start, c :: cs =>
    if c = '-' ∨ (Hex.digit? c).isSome then foreign? (start + c.utf8Size) cs else some (c, start)

/-- The sizes of the groups between hyphens. -/
def sizesBetweenHyphens (cs : List Char) : List Nat := (cs.splitOn '-').map List.length

/-- The first of the leading groups that has the wrong size. -/
def misfit? : (group : Nat) → (expected found : List Nat) → Option Fault
  | group, e :: es, f :: fs =>
    if e = f then misfit? (group + 1) es fs else some (.groupLength group e f)
  | _, _, _ => none

/-- What is wrong with a text that spells no identifier. The text inside braces or after the mark
of a resource name is looked at by itself; only a text without either may do without hyphens. -/
def fault (cs : List Char) : Fault :=
  let (body, start, bare) :=
    match unbraced? cs, afterUrn? cs with
    | some inner, _ => (inner, 1, false)
    | none, some rest => (rest, urnMark.length, false)
    | none, none => (cs, 0, true)
  let sizes := sizesBetweenHyphens body
  match foreign? start body with
  | some (c, index) => .character c index
  | none =>
    if sizes.length = 1 ∧ bare then .length (byteCount cs)
    else if sizes.length ≠ 5 then .groupCount sizes.length
    else (misfit? 0 (groupSizes.take 4) sizes).getD (.groupLength 4 12 (byteCount cs - 24))

/-- Reads an identifier or says what is wrong. -/
def parse (text : String) : Except Fault Uuid :=
  match parse? text with
  | some id => .ok id
  | none => .error (fault text.toList)

/-- The identifier handed out for a serial number: its digits end in those of the number, with the
version digit 4 and the variant digit 8 in their places. -/
def version4 (serial : Nat) : Uuid where
  digits := Hex.digits 12 (serial >>> 72) ++ Hex.digits 1 4 ++ Hex.digits 3 (serial >>> 60) ++
    Hex.digits 1 8 ++ Hex.digits 15 serial
  length_digits := by simp only [List.length_append, Hex.length_digits]

end Uuid

end RoomRelay
