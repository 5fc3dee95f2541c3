import FieldSponge.Proofs.BinaryOperations
import FieldSponge.Proofs.Primality

/-! The laws of powers. The loop over the bits of the exponent, from the highest down, computes the
power of the residue by the number that the bits denote. The canonical value of a power is that of
the integers modulo the prime, for an exponent of any of the three kinds. Exponents add as long as
their sum fits in 256 bits, and by Fermat's little theorem they count modulo the prime minus one
when the base is not zero. -/
namespace FieldSponge

/-- The lowest `i + 1` bits are bit `i` and those below it. -/
theorem UInt256.toNat_mod_two_pow_succ (e : UInt256) (i : ℕ) :
    e.toNat % 2 ^ (i + 1) = (e.bit i).toNat * 2 ^ i + e.toNat % 2 ^ i := by
  rw [UInt256.toNat_bit, Nat.mod_pow_succ, Nat.add_comm, Nat.mul_comm]

namespace Felt

theorem toZMod_powBits (a : Felt) (e : UInt256) (i : ℕ) (power : Felt) :
    (powBits a e i power).toZMod = power.toZMod ^ 2 ^ i * a.toZMod ^ (e.toNat % 2 ^ i) := by
  induction i generalizing power with
  | zero => simp [powBits, Nat.mod_one]
  | succ i ih =>
    have hsq : (power.toZMod ^ 2) ^ 2 ^ i = power.toZMod ^ 2 ^ (i + 1) := by
      rw [← pow_mul, pow_succ' 2 i]
    rw [powBits, ih, UInt256.toNat_mod_two_pow_succ, pow_add a.toZMod]
    cases e.bit i with
    | false => simp [hsq]
    | true =>
      simp only [if_true, toZMod_mul, toZMod_square, mul_pow, hsq, Bool.toNat_true, one_mul]
      ring

/-- The power by an integer of 256 bits is that of the residue. -/
@[simp] theorem toZMod_pow (a : Felt) (e : UInt256) : (a ^ e).toZMod = a.toZMod ^ e.toNat := by
  change (powBits a e e.bitLength 1).toZMod = _
  rw [toZMod_powBits, toZMod_one, one_pow, one_mul, Nat.mod_eq_of_lt e.isLeast_bitLength.1]

@[simp] theorem toZMod_powWord (a : Felt) (e : UInt64) :
    (a.powWord e).toZMod = a.toZMod ^ e.toNat := by
  rw [powWord, toZMod_pow, UInt256.toNat_ofWord]

theorem toNat_pow (a : Felt) (e : UInt256) : (a ^ e).toNat = a.toNat ^ e.toNat % prime :=
  toNat_eq_mod (by rw [toZMod_pow, toZMod, Nat.cast_pow])

theorem toNat_powWord (a : Felt) (e : UInt64) :
    (a.powWord e).toNat = a.toNat ^ e.toNat % prime := by
  rw [powWord, toNat_pow, UInt256.toNat_ofWord]

theorem toNat_powFelt (a b : Felt) : (a.powFelt b).toNat = a.toNat ^ b.toNat % prime :=
  toNat_pow a b.toUInt256

theorem pow_zero_exponent (a : Felt) : a ^ (0 : UInt256) = 1 := by
  rw [← toZMod_eq_one_iff, toZMod_pow, UInt256.toNat_zero, pow_zero]

theorem pow_mul_pow (a : Felt) {e f g : UInt256} (h : e.toNat + f.toNat = g.toNat) :
    a ^ e * a ^ f = a ^ g := by
  rw [← toZMod_inj, toZMod_mul, toZMod_pow, toZMod_pow, toZMod_pow, ← pow_add, h]

/-- Fermat's little theorem. -/
theorem pow_eq_of_modEq {a : Felt} (ha : a ≠ 0) {e f : UInt256}
    (h : e.toNat ≡ f.toNat [MOD prime - 1]) : a ^ e = a ^ f := by
  have h0 : a.toZMod ≠ 0 := mt toZMod_eq_zero_iff.1 ha
  rw [← toZMod_inj, toZMod_pow, toZMod_pow]
  exact pow_eq_pow_of_modEq h (ZMod.pow_card_sub_one_eq_one h0)

/-- A power has the canonical value of the integer power modulo the prime, whether the exponent is
an integer of 256 bits, a word or the canonical value of an element. Exponents of one base add
unless their sum overflows. Those that agree modulo the prime minus one have the same power of a
base other than zero, and the greatest element as exponent gives one. -/
theorem power_laws (a : Felt) :
    (∀ e : UInt256, (a ^ e).toNat = a.toNat ^ e.toNat % prime) ∧
    a ^ (0 : UInt256) = 1 ∧
    (∀ w : UInt64, (a.powWord w).toNat = a.toNat ^ w.toNat % prime ∧
      ∀ e : UInt256, e.toNat = w.toNat → a.powWord w = a ^ e) ∧
    (∀ b : Felt, (a.powFelt b).toNat = a.toNat ^ b.toNat % prime ∧
      ∀ e : UInt256, e.toNat = b.toNat → a.powFelt b = a ^ e) ∧
    (∀ e f : UInt256, e.toNat + f.toNat < 2 ^ 256 →
      a ^ e * a ^ f = a ^ (e.addCarry f).1) ∧
    (a ≠ 0 →
      (∀ e f : UInt256, e.toNat ≡ f.toNat [MOD prime - 1] → a ^ e = a ^ f) ∧
      a.powFelt max = 1) := by
  refine ⟨toNat_pow a, pow_zero_exponent a, fun w => ⟨toNat_powWord a w, fun e he => ?_⟩,
    fun b => ⟨toNat_powFelt a b, fun e he => ?_⟩, fun e f h => ?_,
    fun ha => ⟨fun e f h => pow_eq_of_modEq ha h, ?_⟩⟩
  · rw [← toNat_inj, toNat_powWord, toNat_pow, he]
  · rw [← toNat_inj, toNat_powFelt, toNat_pow, he]
  · have hsum : e.toNat + f.toNat = (e.addCarry f).1.toNat := by
      rw [UInt256.toNat_fst_addCarry]
      simp only [UInt256.size]
      omega
    exact pow_mul_pow a hsum
  · -- The greatest canonical value is a period of the exponents, as zero is.
    have hmax : max.toUInt256.toNat ≡ (0 : UInt256).toNat [MOD prime - 1] := by
      rw [toNat_toUInt256, toNat_max, UInt256.toNat_zero]
      exact Nat.modulus_modEq_zero
    exact (pow_eq_of_modEq ha hmax).trans (pow_zero_exponent a)

end Felt

end FieldSponge
