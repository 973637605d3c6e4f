/-!
# Blank characters and trimming

Room identifiers, member identifiers and message texts are compared after the white space around
them is dropped. White space is the Unicode property `White_Space`, not the smaller ASCII set.

## Main definitions

* `isBlankChar` — the property `White_Space`
* `Text.trimChars`, `Text.trim` — the text without the blanks at its two ends
* `Text.isBlank` — every character is blank, so that nothing remains after trimming
-/

namespace RoomRelay

/-- The ranges of the Unicode property `White_Space`, as code points. -/
def blankRanges : List (Nat × Nat) :=
  [(0x9, 0xD), (0x20, 0x20), (0x85, 0x85), (0xA0, 0xA0), (0x1680, 0x1680), (0x2000, 0x200A),
   (0x2028, 0x2029), (0x202F, 0x202F), (0x205F, 0x205F), (0x3000, 0x3000)]

/-- A character with the Unicode property `White_Space`. -/
def isBlankChar (c : Char) : Bool :=
  blankRanges.any fun range => range.1 ≤ c.toNat && c.toNat ≤ range.2

namespace Text

/-- The characters from the first one that is not blank. -/
def trimLeft (cs : List Char) : List Char := cs.dropWhile isBlankChar

/-- The characters up to the last one that is not blank. -/
def trimRight (cs : List Char) : List Char := (trimLeft cs.reverse).reverse

/-- The characters without the blanks at both ends. -/
def trimChars (cs : List Char) : List Char := trimRight (trimLeft cs)

/-- The text without the blanks at both ends. -/
def trim (text : String) : String := String.ofList (trimChars text.toList)

/-- Every character is blank. -/
def isBlank (text : String) : Bool := text.toList.all isBlankChar

theorem trimLeft_cons_of_blank {c : Char} {cs : List Char} (h : isBlankChar c = true) :
    trimLeft (c :: cs) = trimLeft cs := by
  simp [trimLeft, h]

theorem trimLeft_eq_nil_iff {cs : List Char} : trimLeft cs = [] ↔ cs.all isBlankChar = true := by
  induction cs with
  | nil => simp [trimLeft]
  | cons c cs ih =>
    by_cases h : isBlankChar c = true
    · rw [trimLeft_cons_of_blank h, ih]
      simp [h]
    · simp [trimLeft, h]

theorem all_trimLeft_iff {cs : List Char} :
    (trimLeft cs).all isBlankChar = true ↔ cs.all isBlankChar = true := by
  induction cs with
  | nil => rfl
  | cons c cs ih =>
    by_cases h : isBlankChar c = true
    · rw [trimLeft_cons_of_blank h, ih]
      simp [h]
    · simp [trimLeft, h]

/-- Nothing remains after trimming exactly when every character is blank. -/
theorem trimChars_eq_nil_iff {cs : List Char} : trimChars cs = [] ↔ cs.all isBlankChar = true := by
  rw [trimChars, trimRight, List.reverse_eq_nil_iff, trimLeft_eq_nil_iff, List.all_reverse,
    all_trimLeft_iff]

end Text

end RoomRelay
