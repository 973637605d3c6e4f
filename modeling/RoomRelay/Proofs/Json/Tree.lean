import Mathlib.Data.List.Forall2
import RoomRelay.Json.Printer

/-!
# Texts and the documents they spell

A text spells a document in a free way: blanks stand between tokens as one likes, characters of a
string may be escaped, a number is a numeral. A *tree* is what is left of a text when blanks and
escapes are forgotten: it keeps numerals as they are written and the fields of objects as they
stand, repeats included. This file says which texts spell a tree, without a word about how texts
are read.

## Main definitions

* `Numeral`, `Tree` — documents as they are written
* `Letters`, `Quoted` — the spellings of a string
* `Spells`, `IsText` — the spellings of a tree
* `Tree.depth`, `Tree.value?` — how deep a tree nests, and the value it denotes

## Main results

* `Spells.depth_le` — a text is at least as long as its tree is deep
* `Tree.value?_mono` — a tree denotes a value if its numerals denote numbers
-/

namespace RoomRelay.Json

/-! ### Numerals -/

/-- One or more decimal digits. -/
def AreDigits (cs : List Char) : Prop := cs ≠ [] ∧ ∀ c ∈ cs, c.isDigit = true

instance : DecidablePred AreDigits := fun _ => inferInstanceAs (Decidable (_ ∧ _))

/-- The power of ten behind a numeral, as it is written. -/
structure Numeral.Power where
  /-- The letter in front. -/
  letter : Char
  /-- Its sign, if there is one. -/
  sign : Option Char
  /-- Its digits. -/
  digits : List Char
  letter_mem : letter = 'e' ∨ letter = 'E'
  sign_mem : ∀ c ∈ sign, c = '+' ∨ c = '-'
  areDigits : AreDigits digits

/-- A numeral, in the parts in which it is written. -/
structure Numeral where
  /-- A minus sign stands in front. -/
  negative : Bool
  /-- The digits before the point. -/
  whole : List Char
  /-- The digits after the point, if there is one. -/
  fraction : Option (List Char)
  /-- The power of ten, if there is one. -/
  power : Option Numeral.Power
  whole_areDigits : AreDigits whole
  /-- A zero in front stands alone. -/
  whole_zero : whole.head? = some '0' → whole = ['0']
  fraction_areDigits : ∀ ds ∈ fraction, AreDigits ds

namespace Numeral

/-- The power of ten as it is written. -/
def Power.chars (p : Power) : List Char := p.letter :: (p.sign.toList ++ p.digits)

/-- What follows the digits before the point. -/
def tail (n : Numeral) : List Char :=
  (n.fraction.elim [] fun ds => '.' :: ds) ++ n.power.elim [] Power.chars

/-- The numeral as it is written. -/
def chars (n : Numeral) : List Char :=
  (if n.negative then ['-'] else []) ++ (n.whole ++ n.tail)

/-- The number that the digits before the point denote. -/
def magnitude (n : Numeral) : Nat := Nat.ofDigitChars 10 n.whole 0

/-- The same with the sign. -/
def toInt (n : Numeral) : Int := if n.negative then -n.magnitude else n.magnitude

/-- The integer of 64 bits, with or without a sign, that a numeral without point and power of ten
denotes. A zero with a minus sign is none. -/
def integer? (n : Numeral) : Option Number :=
  if n.tail = [] ∧ (n.negative → n.magnitude ≠ 0) ∧ -9223372036854775808 ≤ n.toInt ∧
      n.toInt ≤ 18446744073709551615 then
    some (.int n.toInt)
  else none

end Numeral

/-! ### Trees -/

/-- A document as it is written, but for blanks and escapes. -/
inductive Tree
  | null
  | bool (value : Bool)
  | number (numeral : Numeral)
  | string (text : String)
  | array (items : List Tree)
  | object (fields : List (String × Tree))

namespace Tree

mutual

/-- The greatest number of arrays and objects that are open at once. -/
def depth : Tree → Nat
  | array items => itemDepth items + 1
  | object fields => fieldDepth fields + 1
  | _ => 0

/-- The depth of the deepest item. -/
def itemDepth : List Tree → Nat
  | [] => 0
  | item :: items => max (depth item) (itemDepth items)

/-- The depth of the deepest field. -/
def fieldDepth : List (String × Tree) → Nat
  | [] => 0
  | (_, tree) :: fields => max (depth tree) (fieldDepth fields)

end

mutual

/-- The value that a tree denotes, once it is said which number each numeral denotes. -/
def value? (number? : Numeral → Option Number) : Tree → Option Value
  | null => some .null
  | bool b => some (.bool b)
  | number n => .number <$> number? n
  | string text => some (.string text)
  | array items => .array <$> itemValues? number? items
  | object fields => .object <$> fieldValues? number? fields

/-- The values of the items. -/
def itemValues? (number? : Numeral → Option Number) : List Tree → Option (List Value)
  | [] => some []
  | item :: items => do return (← value? number? item) :: (← itemValues? number? items)

/-- The fields with the values of their trees. -/
def fieldValues? (number? : Numeral → Option Number) :
    List (String × Tree) → Option (List (String × Value))
  | [] => some []
  | (key, tree) :: fields => do
    return (key, ← value? number? tree) :: (← fieldValues? number? fields)

end

end Tree

/-! ### Strings -/

/-- The characters that may stand between tokens. -/
def Blanks (cs : List Char) : Prop := ∀ c ∈ cs, c ∈ [' ', '\n', '\t', '\r']

theorem blanks_nil : Blanks [] := by simp [Blanks]

/-- The letters that stand for a character after a backslash. -/
def shortForms : List (Char × Char) :=
  [('"', '"'), ('\\', '\\'), ('/', '/'), ('b', '\x08'), ('f', '\x0c'), ('n', '\n'), ('r', '\r'),
   ('t', '\t')]

/-- A hexadecimal digit in either case. -/
def SpellsDigit (d : Fin 16) (c : Char) : Prop := c = Hex.char d ∨ c = (Hex.char d).toUpper

/-- Four hexadecimal digits. -/
def SpellsUnit (n : Nat) (cs : List Char) : Prop :=
  ∃ ds : List (Fin 16), ds.length = 4 ∧ Hex.ofDigits ds = n ∧ List.Forall₂ SpellsDigit ds cs

/-- The ways to write a character in a string. -/
inductive Letter : Char → List Char → Prop
  /-- As it is. -/
  | plain {c : Char} : c ≠ '"' → c ≠ '\\' → 0x20 ≤ c.toNat → Letter c [c]
  /-- By a letter. -/
  | short {c letter : Char} : (letter, c) ∈ shortForms → Letter c ['\\', letter]
  /-- By its code. -/
  | unit {c : Char} {cs : List Char} : SpellsUnit c.toNat cs → Letter c ('\\' :: 'u' :: cs)
  /-- By two surrogates. -/
  | pair {c : Char} {high low : Nat} {cs ds : List Char} :
      0xD800 ≤ high → high ≤ 0xDBFF → 0xDC00 ≤ low → low ≤ 0xDFFF →
      c.toNat = (high - 0xD800) * 0x400 + (low - 0xDC00) + 0x10000 →
      SpellsUnit high cs → SpellsUnit low ds →
      Letter c ('\\' :: 'u' :: (cs ++ '\\' :: 'u' :: ds))

/-- The ways to write some characters. -/
inductive Letters : List Char → List Char → Prop
  | nil : Letters [] []
  | cons {c : Char} {cs part rest : List Char} :
      Letter c part → Letters cs rest → Letters (c :: cs) (part ++ rest)

/-- The ways to write a string, with the marks. -/
def Quoted (text : String) (cs : List Char) : Prop :=
  ∃ inner, Letters text.toList inner ∧ cs = '"' :: (inner ++ ['"'])

/-- Characters without a special meaning may stand as they are. -/
theorem quoted_plain {text : String}
    (h : ∀ c ∈ text.toList, c ≠ '"' ∧ c ≠ '\\' ∧ 0x20 ≤ c.toNat) :
    Quoted text ('"' :: (text.toList ++ ['"'])) := by
  refine ⟨text.toList, ?_, rfl⟩
  generalize text.toList = cs at h
  induction cs with
  | nil => exact .nil
  | cons c cs ih =>
    rw [List.forall_mem_cons] at h
    exact .cons (.plain h.1.1 h.1.2.1 h.1.2.2) (ih h.2)

/-- The same with a check that can be run on a text. -/
theorem quoted_of_all {text : String}
    (h : (text.toList.all fun c => c ≠ '"' ∧ c ≠ '\\' ∧ 0x20 ≤ c.toNat) = true) :
    Quoted text ('"' :: (text.toList ++ ['"'])) :=
  quoted_plain fun c hc => by simpa using List.all_eq_true.mp h c hc

/-! ### Arrays and objects -/

/-- What stands before an item: blanks, and a comma unless it is the first one. -/
inductive Lead : (first : Bool) → List Char → Prop
  | first {b : List Char} : Blanks b → Lead true b
  | next {b b' : List Char} : Blanks b → Blanks b' → Lead false (b ++ ',' :: b')

mutual

/-- The ways to write a tree, without blanks around it. -/
inductive Spells : Tree → List Char → Prop
  | null : Spells .null ['n', 'u', 'l', 'l']
  | true : Spells (.bool true) ['t', 'r', 'u', 'e']
  | false : Spells (.bool false) ['f', 'a', 'l', 's', 'e']
  | number {n : Numeral} : Spells (.number n) n.chars
  | string {text : String} {cs : List Char} : Quoted text cs → Spells (.string text) cs
  | array {items : List Tree} {cs : List Char} :
      Items true items cs → Spells (.array items) ('[' :: cs)
  | object {fields : List (String × Tree)} {cs : List Char} :
      Members true fields cs → Spells (.object fields) ('\x7b' :: cs)

/-- The ways to write the items of an array from one on, with the closing bracket. -/
inductive Items : (first : Bool) → List Tree → List Char → Prop
  | nil {first : Bool} {b : List Char} : Blanks b → Items first [] (b ++ [']'])
  | cons {first : Bool} {item : Tree} {items : List Tree} {lead cs rest : List Char} :
      Lead first lead → Spells item cs → Items false items rest →
      Items first (item :: items) (lead ++ (cs ++ rest))

/-- The ways to write the fields of an object from one on, with the closing brace. -/
inductive Members : (first : Bool) → List (String × Tree) → List Char → Prop
  | nil {first : Bool} {b : List Char} : Blanks b → Members first [] (b ++ ['\x7d'])
  | cons {first : Bool} {key : String} {tree : Tree} {fields : List (String × Tree)}
      {lead name b b' cs rest : List Char} :
      Lead first lead → Quoted key name → Blanks b → Blanks b' → Spells tree cs →
      Members false fields rest →
      Members first ((key, tree) :: fields) (lead ++ (name ++ (b ++ ':' :: (b' ++ (cs ++ rest)))))

end

/-- A text that spells a tree, with blanks around it. -/
def IsText (text : String) (tree : Tree) : Prop :=
  ∃ b cs b', Blanks b ∧ Spells tree cs ∧ Blanks b' ∧ text.toList = b ++ (cs ++ b')

mutual

/-- A text is at least as long as its tree is deep. -/
theorem Spells.depth_le : {tree : Tree} → {cs : List Char} → Spells tree cs →
    tree.depth ≤ cs.length
  | _, _, .null | _, _, .true | _, _, .false | _, _, .number | _, _, .string _ => by
    simp [Tree.depth]
  | _, _, .array h => by simpa [Tree.depth] using h.depth_le
  | _, _, .object h => by simpa [Tree.depth] using h.depth_le

theorem Items.depth_le : {first : Bool} → {items : List Tree} → {cs : List Char} →
    Items first items cs → Tree.itemDepth items ≤ cs.length
  | _, _, _, .nil _ => by simp [Tree.itemDepth]
  | _, _, _, .cons _ h hs => by
    have := h.depth_le
    have := hs.depth_le
    simp only [Tree.itemDepth, List.length_append]
    omega

theorem Members.depth_le : {first : Bool} → {fields : List (String × Tree)} → {cs : List Char} →
    Members first fields cs → Tree.fieldDepth fields ≤ cs.length
  | _, _, _, .nil _ => by simp [Tree.fieldDepth]
  | _, _, _, .cons _ _ _ _ h hs => by
    have := h.depth_le
    have := hs.depth_le
    simp only [Tree.fieldDepth, List.length_append, List.length_cons]
    omega

end

namespace Tree

/-- An entry is no deeper than the deepest one. -/
theorem depth_le_fieldDepth {fields : List (String × Tree)} {field : String × Tree}
    (h : field ∈ fields) : field.2.depth ≤ fieldDepth fields := by
  induction fields with
  | nil => cases h
  | cons other fields ih =>
    rw [fieldDepth]
    cases h with
    | head => exact Nat.le_max_left _ _
    | tail _ h => exact Nat.le_trans (ih h) (Nat.le_max_right _ _)

variable {f g : Numeral → Option Number}

mutual

/-- The more numerals denote a number, the more trees denote a value. -/
theorem value?_mono (hfg : ∀ {n x}, f n = some x → g n = some x) :
    (tree : Tree) → {v : Value} → value? f tree = some v → value? g tree = some v
  | null, _, h | bool _, _, h | string _, _, h => h
  | number n, v, h => by
    obtain ⟨x, hx, rfl⟩ := Option.map_eq_some_iff.mp h
    exact Option.map_eq_some_iff.mpr ⟨x, hfg hx, rfl⟩
  | array items, v, h => by
    obtain ⟨vs, hvs, rfl⟩ := Option.map_eq_some_iff.mp h
    exact Option.map_eq_some_iff.mpr ⟨vs, itemValues?_mono hfg items hvs, rfl⟩
  | object fields, v, h => by
    obtain ⟨vs, hvs, rfl⟩ := Option.map_eq_some_iff.mp h
    exact Option.map_eq_some_iff.mpr ⟨vs, fieldValues?_mono hfg fields hvs, rfl⟩

theorem itemValues?_mono (hfg : ∀ {n x}, f n = some x → g n = some x) :
    (items : List Tree) → {vs : List Value} →
    itemValues? f items = some vs → itemValues? g items = some vs
  | [], _, h => h
  | item :: items, vs, h => by
    obtain ⟨v, hv, vs', hvs, rfl⟩ : ∃ v, value? f item = some v ∧
        ∃ vs', itemValues? f items = some vs' ∧ v :: vs' = vs := by
      simpa [itemValues?, Option.bind_eq_some_iff] using h
    simp [itemValues?, value?_mono hfg item hv, itemValues?_mono hfg items hvs]

theorem fieldValues?_mono (hfg : ∀ {n x}, f n = some x → g n = some x) :
    (fields : List (String × Tree)) → {vs : List (String × Value)} →
    fieldValues? f fields = some vs → fieldValues? g fields = some vs
  | [], _, h => h
  | (key, tree) :: fields, vs, h => by
    obtain ⟨v, hv, vs', hvs, rfl⟩ : ∃ v, value? f tree = some v ∧
        ∃ vs', fieldValues? f fields = some vs' ∧ (key, v) :: vs' = vs := by
      simpa [fieldValues?, Option.bind_eq_some_iff] using h
    simp [fieldValues?, value?_mono hfg tree hv, fieldValues?_mono hfg fields hvs]

end

/-- Only `null` denotes `null`. -/
theorem value?_ne_null {tree : Tree} {v : Value}
    (h : value? f tree = some v) (hne : tree ≠ .null) : v ≠ .null := by
  rintro rfl
  cases tree <;> simp [value?] at h hne

end Tree

end RoomRelay.Json
