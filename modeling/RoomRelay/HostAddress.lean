import RoomRelay.Text.Hex
import RoomRelay.Text.Numeral

/-!
# Addresses of hosts

A host can be given by its address: four numbers between points, or eight groups of hexadecimal
digits between colons.

## Main definitions

* `HostAddress.isDotted`, `HostAddress.isColon` — the two notations
* `HostAddress.isLocal` — what a server can listen at without asking for a name
-/

namespace RoomRelay.HostAddress

/-- A group of an address in colon notation. -/
def isHexGroup (cs : List Char) : Bool :=
  0 < cs.length && cs.length ≤ 4 && cs.all fun c => (Hex.digit? c).isSome

/-- A number of an address in dotted notation. -/
def isByte (cs : List Char) : Bool :=
  match Numeral.digits 255 .tooLarge cs with
  | .ok _ => cs.length = 1 || cs.head? ≠ some '0'
  | .error _ => false

/-- An address of four numbers in dotted notation. -/
def isDotted (cs : List Char) : Bool := (cs.splitOn '.').length = 4 && (cs.splitOn '.').all isByte

/-- The number of 16-bit groups that some parts between colons spell; the last part may be in
dotted notation. -/
def groupCount? : List (List Char) → Option Nat
  | [] => some 0
  | [last] =>
    if isHexGroup last then some 1
    else if isDotted last then some 2
    else none
  | part :: parts => if isHexGroup part then (groupCount? parts).map (· + 1) else none

/-- The parts between colons; an empty text has none. -/
def colonParts (cs : List Char) : List (List Char) := if cs.isEmpty then [] else cs.splitOn ':'

/-- Both sides of the first pair of colons, if there is one. -/
def aroundGap : (before : List Char) → List Char → Option (List Char × List Char)
  | before, ':' :: ':' :: rest => some (before.reverse, rest)
  | before, c :: rest => aroundGap (c :: before) rest
  | _, [] => none

/-- An address of eight groups in colon notation, where a pair of colons stands for the groups that
are missing. -/
def isColon (cs : List Char) : Bool :=
  match aroundGap [] cs with
  | none => groupCount? (colonParts cs) = some 8
  | some (before, after) =>
    match groupCount? (colonParts before), groupCount? (colonParts after) with
    | some m, some n => m + n < 8 && !(before.any (· = '.'))
    | _, _ => false

/-- An address, or the name of this machine. -/
def isLocal (host : String) : Bool :=
  host = "localhost" || isDotted host.toList || isColon host.toList ||
    (host.startsWith "[" && host.endsWith "]" && isColon (host.toList.drop 1).dropLast)

end RoomRelay.HostAddress
