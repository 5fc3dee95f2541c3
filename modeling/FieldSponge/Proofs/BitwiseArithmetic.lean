import FieldSponge.Proofs.FieldDivision

/-! Bitwise operations and shifts of elements against field arithmetic. An identity of integers
between bitwise results is one of elements, reduced or not, since reduction keeps residues. A shift
up is a product by a power of two as long as no bit leaves 256 bits, and a shift down is an integer
quotient by one. -/
namespace FieldSponge

theorem xor_add_two_mul_and (x y : ℕ) : (x ^^^ y) + 2 * (x &&& y) = x + y := by
  induction x using Nat.strongRecOn generalizing y with
  | _ x ih =>
    rcases Nat.eq_zero_or_pos x with rfl | hx
    · simp
    · have hrest := ih (x / 2) (Nat.div_lt_self hx (by decide)) (y / 2)
      rw [← Nat.xor_div_two, ← Nat.and_div_two] at hrest
      have hxor := Nat.xor_mod_two_eq_one (a := x) (b := y)
      have hand := Nat.and_mod_two_eq_one (a := x) (b := y)
      omega

theorem and_add_or (x y : ℕ) : (x &&& y) + (x ||| y) = x + y := by
  induction x using Nat.strongRecOn generalizing y with
  | _ x ih =>
    rcases Nat.eq_zero_or_pos x with rfl | hx
    · simp
    · have hrest := ih (x / 2) (Nat.div_lt_self hx (by decide)) (y / 2)
      rw [← Nat.and_div_two, ← Nat.or_div_two] at hrest
      have hand := Nat.and_mod_two_eq_one (a := x) (b := y)
      have hor := Nat.or_mod_two_eq_one (a := x) (b := y)
      omega

namespace Felt

theorem toZMod_and (a b : Felt) : (a &&& b).toZMod = ((a.toNat &&& b.toNat : ℕ) : ZMod prime) :=
  toZMod_eq_of_toNat_eq (toNat_and a b)

theorem toZMod_or (a b : Felt) : (a ||| b).toZMod = ((a.toNat ||| b.toNat : ℕ) : ZMod prime) :=
  toZMod_eq_of_toNat_eq (toNat_or a b)

theorem toZMod_xor (a b : Felt) : (a ^^^ b).toZMod = ((a.toNat ^^^ b.toNat : ℕ) : ZMod prime) :=
  toZMod_eq_of_toNat_eq (toNat_xor a b)

theorem and_add_or (a b : Felt) : (a &&& b) + (a ||| b) = a + b := by
  rw [← toZMod_inj, toZMod_add, toZMod_and, toZMod_or, toZMod_add, toZMod, toZMod, ← Nat.cast_add,
    FieldSponge.and_add_or, Nat.cast_add]

theorem xor_add_double_and (a b : Felt) : (a ^^^ b) + (a &&& b).double = a + b := by
  rw [← toZMod_inj, toZMod_add, toZMod_double, toZMod_xor, toZMod_and, toZMod_add, toZMod, toZMod,
    ← Nat.cast_ofNat, ← Nat.cast_mul, ← Nat.cast_add, xor_add_two_mul_and, Nat.cast_add]

theorem toNat_shiftLeft_eq (a : Felt) (n : ℕ) :
    (a <<< n).toNat = a.toNat * 2 ^ n % 2 ^ 256 % prime := by
  change (ofUInt256 _).toNat = _
  rw [toNat_ofUInt256, UInt256.toNat_shiftLeft_eq, toNat_toUInt256]

theorem toNat_shiftRight_eq (a : Felt) (n : ℕ) : (a >>> n).toNat = a.toNat / 2 ^ n := by
  rw [toNat_shiftRight, Nat.shiftRight_eq_div_pow]

/-- A shift up by `n` is the product by two to the `n` when no bit leaves 256 bits. -/
theorem shiftLeft_eq_mul {a : Felt} {n : ℕ} (h : a.toNat * 2 ^ n < 2 ^ 256) (hn : n < 2 ^ 64) :
    a <<< n = a * two.powWord (UInt64.ofNat n) := by
  rw [← toNat_inj, toNat_shiftLeft_eq, Nat.mod_eq_of_lt h, toNat_mul, toNat_powWord, toNat_two,
    UInt64.toNat_ofNat', Nat.mod_eq_of_lt hn, Nat.mul_mod_mod]

theorem toNat_mul_two_pow_lt {a : Felt} {n : ℕ} (h : a.bitLength + n ≤ 256) :
    a.toNat * 2 ^ n < 2 ^ 256 := by
  have hlt : a.toNat < 2 ^ a.bitLength := a.toUInt256.isLeast_bitLength.1
  calc a.toNat * 2 ^ n
      < 2 ^ a.bitLength * 2 ^ n := Nat.mul_lt_mul_of_pos_right hlt (Nat.two_pow_pos n)
    _ = 2 ^ (a.bitLength + n) := (pow_add 2 _ _).symm
    _ ≤ 2 ^ 256 := Nat.pow_le_pow_right (by decide) h

theorem bitLength_le_bitWidth (a : Felt) : a.bitLength ≤ bitWidth :=
  (a.toUInt256.bitLength_le_iff bitWidth).2 (a.toNat_lt.trans (by norm_num [prime, bitWidth]))

theorem toNat_one_shiftLeft {n : ℕ} (hn : n ≤ 251) : ((1 : Felt) <<< n).toNat = 2 ^ n := by
  have hle : 2 ^ n ≤ 2 ^ 251 := Nat.pow_le_pow_right (by decide) hn
  have hsmall : 2 ^ n < 2 ^ 256 := hle.trans_lt (by norm_num)
  have hprime : 2 ^ n < prime := hle.trans_lt (by norm_num [prime])
  rw [toNat_shiftLeft_eq, toNat_one, Nat.one_mul, Nat.mod_eq_of_lt hsmall, Nat.mod_eq_of_lt hprime]

/-- A shift down and up again clears the lowest bits, and nothing is reduced. -/
theorem toNat_shiftRight_shiftLeft (a : Felt) (n : ℕ) :
    (a >>> n <<< n).toNat = a.toNat / 2 ^ n * 2 ^ n := by
  have hlt : a.toNat / 2 ^ n * 2 ^ n < prime := (Nat.div_mul_le_self _ _).trans_lt a.toNat_lt
  have hsize : a.toNat / 2 ^ n * 2 ^ n < 2 ^ 256 := hlt.trans (by norm_num [prime])
  rw [toNat_shiftLeft_eq, toNat_shiftRight_eq, Nat.mod_eq_of_lt hsize, Nat.mod_eq_of_lt hlt]

theorem exists_divMod_one_shiftLeft (a : Felt) {n : ℕ} (hn : n ≤ 251) :
    ∃ r, a.divMod ((1 : Felt) <<< n) = .ok (a >>> n, r) ∧ (a >>> n <<< n) + r = a := by
  have hpow := toNat_one_shiftLeft hn
  have hne : (1 : Felt) <<< n ≠ 0 := by
    rw [ne_eq, ← toNat_inj, hpow, toNat_zero]
    exact (Nat.two_pow_pos n).ne'
  obtain ⟨q, r, hok, hdiv⟩ := exists_divMod a hne
  obtain ⟨hq, hr⟩ := UInt256.toNat_of_divMod?_eq_some hdiv
  simp only [toNat_toUInt256, hpow] at hq hr
  have hquotient : q = a >>> n := by rw [← toNat_inj, hq, toNat_shiftRight_eq]
  refine ⟨r, by rw [hok, hquotient], ?_⟩
  rw [← toNat_inj, toNat_add, toNat_shiftRight_shiftLeft, hr, Nat.div_add_mod',
    Nat.mod_eq_of_lt a.toNat_lt]

/-- A bitwise operation on elements is that of the canonical values, modulo the prime. A shift up
multiplies by a power of two modulo `2 ^ 256` and then modulo the prime, and a shift down divides by
it, so from 256 bits on both leave zero. The common bits and all bits of two elements have their
sum, as the other bits and twice the common ones do. A shift up is the product by a power of two
when no bit leaves 256 bits, and none does in a shift by four bits or less. A shift down by at most
the index of the highest bit of the prime is the integer quotient by a shifted one, and shifted up
again it is the element without the remainder. -/
theorem bitwise_arithmetic (a b : Felt) :
    (a &&& b).toNat = (a.toNat &&& b.toNat) % prime ∧
    (a ||| b).toNat = (a.toNat ||| b.toNat) % prime ∧
    (a ^^^ b).toNat = (a.toNat ^^^ b.toNat) % prime ∧
    (∀ n : ℕ,
      (a <<< n).toNat = a.toNat * 2 ^ n % 2 ^ 256 % prime ∧
      (a >>> n).toNat = a.toNat / 2 ^ n ∧
      (256 ≤ n → a <<< n = 0 ∧ a >>> n = 0)) ∧
    (a &&& b) + (a ||| b) = a + b ∧
    (a ^^^ b) + (a &&& b).double = a + b ∧
    (∀ n : ℕ, a.bitLength + n ≤ 256 ∨ n ≤ 4 → a <<< n = a * two.powWord (UInt64.ofNat n)) ∧
    ∀ n : ℕ, n ≤ 251 →
      ∃ r, a.divMod ((1 : Felt) <<< n) = .ok (a >>> n, r) ∧ (a >>> n <<< n) + r = a := by
  refine ⟨toNat_and a b, toNat_or a b, toNat_xor a b,
    fun n => ⟨toNat_shiftLeft_eq a n, toNat_shiftRight_eq a n, fun hn => ⟨?_, ?_⟩⟩, and_add_or a b,
    xor_add_double_and a b, fun n hn => ?_, fun n hn => exists_divMod_one_shiftLeft a hn⟩
  · rw [← toNat_inj, toNat_shiftLeft_eq, toNat_zero, ← Nat.sub_add_cancel hn, pow_add,
      ← Nat.mul_assoc, Nat.mul_mod_left, Nat.zero_mod]
  · have hlt : a.toNat < 2 ^ n := a.toUInt256.toNat_lt.trans_le
      (UInt256.size_eq_two_pow.le.trans (Nat.pow_le_pow_right (by decide) hn))
    rw [← toNat_inj, toNat_shiftRight_eq, toNat_zero, Nat.div_eq_of_lt hlt]
  · have hwidth : a.bitLength + n ≤ 256 := by
      have hbits := a.bitLength_le_bitWidth
      rw [bitWidth] at hbits
      omega
    exact shiftLeft_eq_mul (toNat_mul_two_pow_lt hwidth) (by omega)

end Felt

end FieldSponge
