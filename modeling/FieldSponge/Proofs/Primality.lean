import FieldSponge.Felt.SquareRoot
import FieldSponge.Proofs.Residues
import Mathlib.FieldTheory.Finite.Basic
import Mathlib.Tactic.ReduceModChar

/-! The order of the field is a prime number. The root of unity of the square-root search has order
`2 ^ 192` modulo each prime factor, so every prime factor exceeds that, and the square of the least
one would exceed the number itself. -/
namespace FieldSponge

theorem orderOf_of_pow_eq_neg_one {n k : ℕ} [Fact (2 < n)] {x : ZMod n} (h : x ^ 2 ^ k = -1) :
    orderOf x = 2 ^ (k + 1) := by
  apply orderOf_eq_prime_pow
  · rw [h]
    exact ZMod.neg_one_ne_one
  · rw [pow_succ, pow_mul, h, neg_one_sq]

/-- A number is prime when it is odd, some residue has minus one as its power by `2 ^ k`, and it is
below the square of `2 ^ (k + 1)`. -/
theorem prime_of_pow_eq_neg_one {n k : ℕ} {a : ZMod n} (hn : 1 < n) (hodd : n % 2 = 1)
    (hk : n < 2 ^ (k + 1) * 2 ^ (k + 1)) (ha : a ^ 2 ^ k = -1) : n.Prime := by
  by_contra hnp
  have hl : n.minFac.Prime := Nat.minFac_prime (by omega)
  have hsq : n.minFac ^ 2 ≤ n := Nat.minFac_sq_le_self (by omega) hnp
  have hl2 : n.minFac ≠ 2 := by
    intro h
    have hd : 2 ∣ n := h ▸ n.minFac_dvd
    omega
  have _prime : Fact n.minFac.Prime := ⟨hl⟩
  have _odd : Fact (2 < n.minFac) := ⟨lt_of_le_of_ne hl.two_le hl2.symm⟩
  -- The residue modulo the least prime factor has the order `2 ^ (k + 1)`.
  let b : ZMod n.minFac := ZMod.castHom n.minFac_dvd (ZMod n.minFac) a
  have hb : b ^ 2 ^ k = -1 := by rw [← map_pow, ha, map_neg, map_one]
  have hb0 : b ≠ 0 := by
    intro h
    rw [h, zero_pow (pow_ne_zero k two_ne_zero), zero_eq_neg] at hb
    exact one_ne_zero hb
  have hdvd : 2 ^ (k + 1) ∣ n.minFac - 1 :=
    orderOf_of_pow_eq_neg_one hb ▸ ZMod.orderOf_dvd_card_sub_one hb0
  have hle : 2 ^ (k + 1) ≤ n.minFac - 1 := Nat.le_of_dvd (by have := hl.two_le; omega) hdvd
  have hmul : 2 ^ (k + 1) * 2 ^ (k + 1) ≤ n.minFac * n.minFac :=
    Nat.mul_le_mul (by omega) (by omega)
  rw [sq] at hsq
  omega

namespace Felt

theorem toZMod_rootOfUnity :
    rootOfUnity.toZMod = 0x005282db87529cfa3f0464519c8b0fa5ad187148e11a61616070024f42f8ef94 := by
  rw [toZMod, rootOfUnity, toNat_ofUInt256]
  rfl

/-- The root of unity has order `2 ^ 192`. -/
theorem toZMod_rootOfUnity_pow : rootOfUnity.toZMod ^ 2 ^ (twoAdicity - 1) = -1 := by
  have h : (0x005282db87529cfa3f0464519c8b0fa5ad187148e11a61616070024f42f8ef94 :
      ZMod 0x800000000000011000000000000000000000000000000000000000000000001)
        ^ 0x800000000000000000000000000000000000000000000000 = -1 := by
    reduce_mod_char
  rw [toZMod_rootOfUnity]
  exact h

end Felt

theorem prime_isPrime : prime.Prime :=
  prime_of_pow_eq_neg_one (by decide) (by decide) (by decide) Felt.toZMod_rootOfUnity_pow

instance : Fact prime.Prime := ⟨prime_isPrime⟩

instance : Fact (2 < prime) := ⟨by decide⟩

end FieldSponge
