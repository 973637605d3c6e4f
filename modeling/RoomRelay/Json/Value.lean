import RoomRelay.Decimal.Double

/-!
# Document values

The values that messages carry as metadata, and that request texts are made of.

A value read from a text keeps the fields of an object as they stood, repeats included, because a
decoder of records wants to see them. A value kept for later is *canonical*: each key once, with
the field that came last, and the keys in order.

## Main definitions

* `Json.Number`, `Json.Value` — numbers and values
* `Json.Value.canonical` — the value with the fields of all its objects in order and without repeats
* `Json.Value.field?` — the field of an object
-/

namespace RoomRelay.Json

/-- A number: an integer in the range of 64 bits, signed or not, or a floating-point number. -/
inductive Number
  | int (value : Int)
  | float (value : Double)
  deriving DecidableEq

/-- A document value. -/
inductive Value
  | null
  | bool (value : Bool)
  | number (value : Number)
  | string (value : String)
  | array (items : List Value)
  | object (fields : List (String × Value))

namespace Value

instance : Inhabited Value := ⟨null⟩

mutual

/-- Whether two values are equal. -/
def decEq : (a b : Value) → Decidable (a = b)
  | null, null => .isTrue rfl
  | bool a, bool b => decidable_of_iff (a = b) (by simp)
  | number a, number b => decidable_of_iff (a = b) (by simp)
  | string a, string b => decidable_of_iff (a = b) (by simp)
  | array a, array b =>
    match decEqItems a b with
    | .isTrue h => .isTrue (by rw [h])
    | .isFalse h => .isFalse (by simpa using h)
  | object a, object b =>
    match decEqFields a b with
    | .isTrue h => .isTrue (by rw [h])
    | .isFalse h => .isFalse (by simpa using h)
  | null, bool _ | null, number _ | null, string _ | null, array _ | null, object _
  | bool _, null | bool _, number _ | bool _, string _ | bool _, array _ | bool _, object _
  | number _, null | number _, bool _ | number _, string _ | number _, array _ | number _, object _
  | string _, null | string _, bool _ | string _, number _ | string _, array _ | string _, object _
  | array _, null | array _, bool _ | array _, number _ | array _, string _ | array _, object _
  | object _, null | object _, bool _ | object _, number _ | object _, string _
  | object _, array _ => .isFalse (by simp)

/-- Whether two lists of items are equal. -/
def decEqItems : (a b : List Value) → Decidable (a = b)
  | [], [] => .isTrue rfl
  | a :: as, b :: bs =>
    match decEq a b, decEqItems as bs with
    | .isTrue h, .isTrue hs => .isTrue (by rw [h, hs])
    | .isFalse h, _ => .isFalse (by simp [h])
    | _, .isFalse hs => .isFalse (by simp [hs])
  | [], _ :: _ | _ :: _, [] => .isFalse (by simp)

/-- Whether two lists of fields are equal. -/
def decEqFields : (a b : List (String × Value)) → Decidable (a = b)
  | [], [] => .isTrue rfl
  | (j, a) :: as, (k, b) :: bs =>
    match instDecidableEqString j k, decEq a b, decEqFields as bs with
    | .isTrue hk, .isTrue h, .isTrue hs => .isTrue (by rw [hk, h, hs])
    | .isFalse hk, _, _ => .isFalse (by simp [hk])
    | _, .isFalse h, _ => .isFalse (by simp [h])
    | _, _, .isFalse hs => .isFalse (by simp [hs])
  | [], _ :: _ | _ :: _, [] => .isFalse (by simp)

end

instance : DecidableEq Value := decEq

/-- Puts a field in its place among fields in order of their keys, over a field of the same key. -/
def putField (key : String) (value : Value) : List (String × Value) → List (String × Value)
  | [] => [(key, value)]
  | (k, v) :: rest =>
    if key = k then (key, value) :: rest
    else if key < k then (key, value) :: (k, v) :: rest
    else (k, v) :: putField key value rest

/-- The fields in order of their keys; of several with one key, the last. -/
def ordered (fields : List (String × Value)) : List (String × Value) :=
  fields.foldl (fun kept field => putField field.1 field.2 kept) []

mutual

/-- The value with the fields of all its objects in order and without repeats. -/
def canonical : Value → Value
  | array items => array (canonicalItems items)
  | object fields => object (ordered (canonicalFields fields))
  | value => value

/-- The canonical forms of the items. -/
def canonicalItems : List Value → List Value
  | [] => []
  | item :: items => canonical item :: canonicalItems items

/-- The fields with the canonical forms of their values. -/
def canonicalFields : List (String × Value) → List (String × Value)
  | [] => []
  | (key, value) :: fields => (key, canonical value) :: canonicalFields fields

end

/-- The fields of an object; no other value has any. -/
def fields : Value → List (String × Value)
  | object fs => fs
  | _ => []

/-- The first field of an object with this key. -/
def field? (value : Value) (key : String) : Option Value :=
  (value.fields.find? fun field => field.1 = key).map (·.2)

/-- The items of an array; no other value has any. -/
def items : Value → List Value
  | array xs => xs
  | _ => []

/-- The text of a string value. -/
def string? : Value → Option String
  | string text => some text
  | _ => none

/-- The truth value of a boolean. -/
def bool? : Value → Option Bool
  | bool b => some b
  | _ => none

/-- The integer of a number that is one. -/
def int? : Value → Option Int
  | number (.int n) => some n
  | _ => none

end Value

end RoomRelay.Json
