import RoomRelay.Token.Base64Url

/-!
# Bytes survive their encoding as characters

The sixty-four characters and the values below 64 correspond to each other, and a group of bytes can
be computed from the values of its characters. So encoded bytes are decoded again. None of the
characters is a point, so that points can part what is encoded.

## Main results

* `Base64Url.decode?_encode` — bytes are decoded from their own characters
* `Base64Url.not_mem_encode` — encoded bytes have no point
-/

namespace RoomRelay.Base64Url

/-! ### Single characters -/

/-- A character gives the value back that it stands for. -/
theorem value?_char (n : Nat) : value? (char n) = some (n % 64) := by
  have htable : ∀ m < 64, value? (alphabet.getD m 'A') = some m := by decide +kernel
  exact htable _ (Nat.mod_lt n (by decide))

theorem char_ne_point (n : Nat) : char n ≠ '.' := by
  intro h
  have hvalue := value?_char n
  rw [h] at hvalue
  exact absurd hvalue (by simp [value?])

/-! ### Groups of characters -/

section Group

variable (a b c : UInt8)

/-- A byte is told from any number whose lowest part it is. -/
theorem ofNat_eq_of_mod {n : Nat} {b : UInt8} (h : n % 256 = b.toNat) : UInt8.ofNat n = b := by
  apply UInt8.toNat_inj.mp
  rw [UInt8.toNat_ofNat', ← h]

/-- The values of four characters are the digits of the number that three bytes make. -/
theorem group_three :
    let n := a.toNat * 65536 + b.toNat * 256 + c.toNat
    n / 262144 % 64 * 262144 + n / 4096 % 64 * 4096 + n / 64 % 64 * 64 + n % 64 = n ∧
      UInt8.ofNat (n / 65536) = a ∧ UInt8.ofNat (n / 256) = b ∧ UInt8.ofNat n = c := by
  have ha := a.toNat_lt
  have hb := b.toNat_lt
  have hc := c.toNat_lt
  refine ⟨by omega, ofNat_eq_of_mod (by omega), ofNat_eq_of_mod (by omega),
    ofNat_eq_of_mod (by omega)⟩

/-- The same of two bytes and three characters, whose last two bits are zero. -/
theorem group_two :
    let n := a.toNat * 1024 + b.toNat * 4
    n / 4096 % 64 * 4096 + n / 64 % 64 * 64 + n % 64 = n ∧ n % 4 = 0 ∧
      UInt8.ofNat (n / 1024) = a ∧ UInt8.ofNat (n / 4) = b := by
  have ha := a.toNat_lt
  have hb := b.toNat_lt
  exact ⟨by omega, by omega, ofNat_eq_of_mod (by omega), ofNat_eq_of_mod (by omega)⟩

/-- The same of one byte and two characters, whose last four bits are zero. -/
theorem group_one :
    let n := a.toNat * 16
    n / 64 % 64 * 64 + n % 64 = n ∧ n % 16 = 0 ∧ UInt8.ofNat (n / 16) = a := by
  have ha := a.toNat_lt
  exact ⟨by omega, by omega, ofNat_eq_of_mod (by omega)⟩

end Group

/-! ### Whole texts -/

/-- Bytes are decoded from their own characters. -/
theorem decode?_encode (bs : List UInt8) : decode? (encode bs) = some bs := by
  fun_induction encode bs with
  | case1 a b c rest n ih =>
    obtain ⟨hgroup, ha, hb, hc⟩ := group_three a b c
    simp only [decode?, value?_char, Option.bind_eq_bind, Option.bind_some, ih]
    simp only [n, hgroup, ha, hb, hc]
    rfl
  | case2 a b n =>
    obtain ⟨hgroup, hzero, ha, hb⟩ := group_two a b
    simp only [decode?, value?_char, Option.bind_eq_bind, Option.bind_some]
    simp only [n, hgroup, hzero, ha, hb, if_true]
  | case3 a =>
    obtain ⟨hgroup, hzero, ha⟩ := group_one a
    simp only [decode?, value?_char, Option.bind_eq_bind, Option.bind_some]
    simp only [hgroup, hzero, ha, if_true]
  | case4 => rfl

/-- Encoded bytes have no point. -/
theorem not_mem_encode (bs : List UInt8) : '.' ∉ encode bs := by
  fun_induction encode bs with
  | case1 a b c rest n ih => simp [(char_ne_point _).symm, ih]
  | case2 a b n => simp [(char_ne_point _).symm]
  | case3 a => simp [(char_ne_point _).symm]
  | case4 => exact List.not_mem_nil

end RoomRelay.Base64Url
