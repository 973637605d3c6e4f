import RoomRelay.Text.Utf8

/-!
# Texts survive their encoding

The bytes of a text are those of its characters, one after the other, and reading them gives the
characters back, whatever follows. So a body that carries a text is read as the text is.

## Main results

* `Utf8.bytes_eq_flatMap` — the bytes of a text, character by character
* `Utf8.leading?_encodeChar` — a character is read from its own bytes
* `Utf8.symbols_bytes` — a text is read from its own bytes
-/

namespace RoomRelay.Utf8

/-- The loop puts the bytes from one place on behind those that it has. -/
theorem toList_loop_eq (bs : ByteArray) (i : Nat) (before : List UInt8) :
    ByteArray.toList.loop bs i before = before.reverse ++ bs.data.toList.drop i := by
  fun_induction ByteArray.toList.loop bs i before with
  | case1 i before hlt ih =>
    have hlength : i < bs.data.toList.length := by simpa using hlt
    rw [ih, List.drop_eq_getElem_cons hlength]
    simp [ByteArray.get!, hlt]
  | case2 i before hge =>
    rw [List.drop_eq_nil_of_le (by simpa using Nat.le_of_not_lt hge)]
    simp

/-- The bytes of a text are those of its characters. -/
theorem bytes_eq_flatMap (text : String) :
    bytes text = text.toList.flatMap String.utf8EncodeChar := by
  have hdata : text.toByteArray.data.toList = text.toList.flatMap String.utf8EncodeChar := by
    rw [← String.utf8Encode_toList, List.utf8Encode, List.toList_data_toByteArray]
  rw [bytes, String.toUTF8, ByteArray.toList, toList_loop_eq, hdata]
  rfl

theorem toNat_ofNat {n : Nat} (h : n < 256) : (UInt8.ofNat n).toNat = n := by
  rw [UInt8.toNat_ofNat', Nat.mod_eq_of_lt h]

/-- A byte that continues a character gives its six bits back. -/
theorem continuation?_ofNat {x : Nat} (h : x < 64) :
    continuation? (UInt8.ofNat (x + 128)) = some x := by
  have hrange : (0x80 : UInt8) ≤ UInt8.ofNat (x + 128) ∧ UInt8.ofNat (x + 128) < 0xC0 := by
    rw [UInt8.le_iff_toNat_le, UInt8.lt_iff_toNat_lt, toNat_ofNat (by omega)]
    simp
    omega
  rw [continuation?, if_pos hrange, toNat_ofNat (by omega)]
  simp

theorem scalar?_toNat {least : Nat} {c : Char} (h : least ≤ c.toNat) :
    scalar? least c.toNat = some c := by
  rw [scalar?, dif_pos ⟨h, c.valid⟩]
  rfl

section Leading

variable {c : Char} {b b₁ b₂ b₃ : UInt8} {rest : List UInt8} {a x y z : Nat}

theorem leading?_one (hb : b.toNat = c.toNat) (h : c.toNat < 128) :
    leading? (b :: rest) = some (c, 0) := by
  have hlt : b < 0x80 := by
    rw [UInt8.lt_iff_toNat_lt, hb]
    exact h
  rw [leading?, if_pos hlt, hb, Char.ofNat_toNat]

theorem leading?_two (hb : b.toNat = a + 192) (ha : a < 32) (hx : continuation? b₁ = some x)
    (hc : c.toNat = a * 64 + x) (hleast : 0x80 ≤ c.toNat) :
    leading? (b :: b₁ :: rest) = some (c, 1) := by
  have hscalar := scalar?_toNat hleast
  rw [hc] at hscalar
  simp only [leading?, UInt8.lt_iff_toNat_lt, hb, UInt8.reduceToNat]
  rw [if_neg (by omega), if_neg (by omega), if_pos (by omega)]
  simp [hx, hscalar]

theorem leading?_three (hb : b.toNat = a + 224) (ha : a < 16) (hx : continuation? b₁ = some x)
    (hy : continuation? b₂ = some y) (hc : c.toNat = (a * 64 + x) * 64 + y)
    (hleast : 0x800 ≤ c.toNat) : leading? (b :: b₁ :: b₂ :: rest) = some (c, 2) := by
  have hscalar := scalar?_toNat hleast
  rw [hc] at hscalar
  simp only [leading?, UInt8.lt_iff_toNat_lt, hb, UInt8.reduceToNat]
  rw [if_neg (by omega), if_neg (by omega), if_neg (by omega), if_pos (by omega)]
  simp [hx, hy, hscalar]

theorem leading?_four (hb : b.toNat = a + 240) (ha : a < 8) (hx : continuation? b₁ = some x)
    (hy : continuation? b₂ = some y) (hz : continuation? b₃ = some z)
    (hc : c.toNat = ((a * 64 + x) * 64 + y) * 64 + z) (hleast : 0x10000 ≤ c.toNat) :
    leading? (b :: b₁ :: b₂ :: b₃ :: rest) = some (c, 3) := by
  have hscalar := scalar?_toNat hleast
  rw [hc] at hscalar
  simp only [leading?, UInt8.lt_iff_toNat_lt, hb, UInt8.reduceToNat]
  rw [if_neg (by omega), if_neg (by omega), if_neg (by omega), if_neg (by omega),
    if_pos (by omega)]
  simp [hx, hy, hz, hscalar]

/-- A character is read from its own bytes, whatever follows. -/
theorem leading?_encodeChar (c : Char) (rest : List UInt8) :
    leading? (String.utf8EncodeChar c ++ rest) =
      some (c, (String.utf8EncodeChar c).length - 1) := by
  have hnat : c.val.toNat = c.toNat := rfl
  have hlt : c.toNat < 0x110000 := by
    have hvalid := c.valid
    simp only [UInt32.isValidChar, Nat.isValidChar, hnat] at hvalid
    omega
  simp only [String.utf8EncodeChar, hnat]
  split
  · exact leading?_one (toNat_ofNat (by omega)) (by omega)
  · have hsix : ∀ k : Nat, continuation? (UInt8.ofNat (k % 64 + 128)) = some (k % 64) :=
      fun k => continuation?_ofNat (by omega)
    split
    · exact leading?_two (toNat_ofNat (by omega)) (by omega) (hsix _) (by omega) (by omega)
    · split
      · exact leading?_three (toNat_ofNat (by omega)) (by omega) (hsix _) (hsix _) (by omega)
          (by omega)
      · exact leading?_four (toNat_ofNat (by omega)) (by omega) (hsix _) (hsix _) (hsix _)
          (by omega) (by omega)

end Leading

theorem symbolsAfter_append (bs rest : List UInt8) :
    symbolsAfter bs.length (bs ++ rest) = symbolsAfter 0 rest := by
  induction bs with
  | nil => rfl
  | cons b bs ih => exact ih

theorem symbols_encodeChar (c : Char) (rest : List UInt8) :
    symbols (String.utf8EncodeChar c ++ rest) = some c :: symbols rest := by
  have hleading := leading?_encodeChar c rest
  have hne : String.utf8EncodeChar c ≠ [] := by
    intro hnil
    have := c.utf8Size_pos
    simp [← String.length_utf8EncodeChar, hnil] at this
  obtain ⟨b, bs, hbytes⟩ := List.exists_cons_of_ne_nil hne
  rw [hbytes] at hleading ⊢
  rw [symbols, List.cons_append, symbolsAfter, ← List.cons_append, hleading]
  exact congrArg (some c :: ·) (symbolsAfter_append bs rest)

/-- A text is read from its own bytes, whatever follows. -/
theorem symbols_bytes_append (text : String) (rest : List UInt8) :
    symbols (bytes text ++ rest) = Text.symbols text ++ symbols rest := by
  rw [bytes_eq_flatMap, Text.symbols]
  induction text.toList with
  | nil => rfl
  | cons c cs ih =>
    rw [List.flatMap_cons, List.append_assoc, symbols_encodeChar, ih]
    rfl

theorem symbols_bytes (text : String) : symbols (bytes text) = Text.symbols text := by
  have := symbols_bytes_append text []
  simpa [symbols, symbolsAfter] using this

end RoomRelay.Utf8
