import FieldSponge.Proofs.BinaryOperations
import FieldSponge.Proofs.Primality

/-! Between the canonical form of a residue, which is the integer below the prime, and its stored
form, which is that integer times `2 ^ 256` modulo the prime. A Montgomery product takes an integer
to either form, whatever its 256 bits are. Words that are given as a stored form are reduced by
repeated subtraction instead. -/
namespace FieldSponge

open UInt256 (size_eq_two_pow)

namespace Montgomery

/-- The product of an integer of 256 bits and one below the prime is the only integer below the
prime that is, times `2 ^ 256`, their product modulo the prime. -/
theorem eq_toNat_mul_iff {b : UInt256} (hb : b.toNat < prime) (a : UInt256) (r : ℕ) :
    r = (mul a b).toNat ↔ r < prime ∧ r * 2 ^ 256 ≡ a.toNat * b.toNat [MOD prime] := by
  have hprod : (mul a b).toNat * 2 ^ 256 ≡ a.toNat * b.toNat [MOD prime] := by
    rw [← size_eq_two_pow]
    exact toNat_mul_mod hb
  constructor
  · rintro rfl
    exact ⟨toNat_mul_lt hb, hprod⟩
  · rintro ⟨hr, hmod⟩
    -- The radix is coprime to the prime, so it cancels.
    have hcoprime : Nat.gcd prime (2 ^ 256) = 1 := by decide
    have hcancel := Nat.ModEq.cancel_right_of_coprime hcoprime (hmod.trans hprod.symm)
    exact hcancel.eq_of_lt_of_lt hr (toNat_mul_lt hb)

theorem eq_toNat_mul_max : (modulus.subBorrow 1).1.toNat < prime ∧
    radixInverse - 1 = (mul UInt256.max (modulus.subBorrow 1).1).toNat :=
  ⟨by decide, (eq_toNat_mul_iff (by decide) UInt256.max _).2 ⟨by decide, by decide⟩⟩

theorem natCast_radixInverse : ((radixInverse : ℕ) : ZMod prime) = (2 ^ 256)⁻¹ := by
  have h : ((UInt256.size * radixInverse : ℕ) : ZMod prime) = 1 := by
    rw [← ZMod.natCast_mod, size_mul_radixInverse, Nat.cast_one]
  rw [size_eq_two_pow, Nat.cast_mul, Nat.cast_pow, Nat.cast_ofNat] at h
  exact eq_inv_of_mul_eq_one_right h

theorem natCast_ofCanonical (x : UInt256) :
    ((ofCanonical x).toNat : ZMod prime) = x.toNat * 2 ^ 256 := by
  rw [toNat_ofCanonical, ZMod.natCast_mod, size_eq_two_pow, Nat.cast_mul, Nat.cast_pow,
    Nat.cast_ofNat]

theorem natCast_toCanonical (x : UInt256) :
    ((toCanonical x).toNat : ZMod prime) = x.toNat * (2 ^ 256)⁻¹ := by
  rw [toNat_toCanonical, ZMod.natCast_mod, Nat.cast_mul, natCast_radixInverse]

theorem val_natCast_toNat {x : UInt256} (h : x.toNat < prime) :
    (x.toNat : ZMod prime).val = x.toNat := by
  rw [ZMod.val_natCast, Nat.mod_eq_of_lt h]

theorem ofCanonical_toCanonical_eq_iff (y : UInt256) :
    ofCanonical (toCanonical y) = y ↔ y.toNat < prime := by
  rw [← UInt256.toNat_inj, toNat_ofCanonical_toCanonical, Nat.mod_eq_iff_lt (by decide)]

def subtractPrime (x : UInt256) : UInt256 := (x.subBorrow modulus).1

theorem toNat_subtractPrime {x : UInt256} (h : modulus ≤ x) :
    (subtractPrime x).toNat = x.toNat - prime := by
  rw [subtractPrime, UInt256.toNat_fst_subBorrow_of_le h, toNat_modulus]

theorem toNat_iterate_subtractPrime {x : UInt256} {n : ℕ} (h : n * prime ≤ x.toNat) :
    (subtractPrime^[n] x).toNat = x.toNat - n * prime := by
  induction n with
  | zero => rw [Function.iterate_zero_apply, Nat.zero_mul, Nat.sub_zero]
  | succ n ih =>
    rw [Nat.succ_mul] at h ⊢
    have hn := ih (Nat.le_of_add_right_le h)
    have hle : modulus ≤ subtractPrime^[n] x := by
      rw [UInt256.le_iff_toNat_le, toNat_modulus, hn]
      omega
    rw [Function.iterate_succ_apply', toNat_subtractPrime hle, hn, Nat.sub_sub]

theorem modulus_le_iterate_subtractPrime_iff {x : UInt256} {n : ℕ} (h : n * prime ≤ x.toNat) :
    modulus ≤ subtractPrime^[n] x ↔ n < x.toNat / prime := by
  rw [UInt256.le_iff_toNat_le, toNat_modulus, toNat_iterate_subtractPrime h, Nat.lt_iff_add_one_le,
    Nat.le_div_iff_mul_le (by decide), Nat.succ_mul]
  omega

theorem reduce_eq_iterate_subtractPrime (x : UInt256) :
    reduce x = subtractPrime^[x.toNat / prime] x := by
  have h : x.toNat / prime * prime ≤ x.toNat := Nat.div_mul_le_self _ _
  apply UInt256.toNat_inj.1
  rw [toNat_reduce, toNat_iterate_subtractPrime h, Nat.mod_eq_sub_div_mul]

/-- An integer of 256 bits holds the prime at most 31 times. -/
theorem toNat_div_prime_le (x : UInt256) : x.toNat / prime ≤ 31 := by
  have hx := x.toNat_lt
  rw [Nat.div_le_iff_le_mul_add_pred (by decide)]
  simp only [UInt256.size, prime] at hx ⊢
  omega

end Montgomery

namespace Felt

open Montgomery

/-- Stored words that are taken for canonical ones denote the element times `2 ^ 256`. -/
theorem toZMod_ofUInt256_mont (a : Felt) : (ofUInt256 a.mont).toZMod = a.toZMod * 2 ^ 256 := by
  have hmont : (ofCanonical a.toUInt256).toNat = a.mont.toNat :=
    congrArg (fun x => x.mont.toNat) (ofUInt256_toUInt256 a)
  rw [toZMod_eq_of_toNat_eq (toNat_ofUInt256 a.mont), ← hmont, natCast_ofCanonical]
  rfl

/-- Canonical words that are taken for stored ones denote the element divided by `2 ^ 256`. -/
theorem toZMod_ofMontgomery_toUInt256 (a : Felt) :
    (ofMontgomery a.toUInt256).toZMod = a.toZMod * (2 ^ 256)⁻¹ := by
  rw [toZMod_eq_of_toNat_eq (toNat_ofMontgomery a.toUInt256), Nat.cast_mul, natCast_radixInverse]
  rfl

theorem toNat_mont_ofMontgomery (x : UInt256) : (ofMontgomery x).mont.toNat = x.toNat % prime :=
  toNat_reduce x

theorem mont_ofMontgomery_eq_iff (x : UInt256) : (ofMontgomery x).mont = x ↔ x.toNat < prime := by
  rw [← UInt256.toNat_inj, toNat_mont_ofMontgomery, Nat.mod_eq_iff_lt (by decide)]

theorem ofMontgomery_mont (a : Felt) : ofMontgomery a.mont = a :=
  mont_inj.1 ((mont_ofMontgomery_eq_iff a.mont).2 a.mont_lt)

/-- Any integer of 256 bits is taken to its stored and to its canonical form by the two products,
and given words are stored modulo the prime after at most 31 passes of the loop. To take stored
words for canonical ones multiplies by `2 ^ 256`, and to take canonical words for stored ones
divides by it. -/
theorem forms_inverse :
    (∀ x : UInt256,
      (ofCanonical x).toNat = x.toNat * 2 ^ 256 % prime ∧
      (toCanonical x).toNat = ((x.toNat : ZMod prime) * (2 ^ 256)⁻¹).val ∧
      (ofCanonical x).toNat < prime ∧ (toCanonical x).toNat < prime ∧
      (toCanonical (ofCanonical x)).toNat = x.toNat % prime ∧
      (ofCanonical (toCanonical x) = x ↔ x.toNat < prime)) ∧
    (∀ x : UInt256,
      (∃ n ≤ 31, (∀ i < n, modulus ≤ subtractPrime^[i] x) ∧ subtractPrime^[n] x < modulus ∧
        (ofMontgomery x).mont = subtractPrime^[n] x) ∧
      (ofMontgomery x).mont.toNat = x.toNat % prime ∧
      ((ofMontgomery x).mont = x ↔ x.toNat < prime)) ∧
    ∀ a : Felt, ofMontgomery a.mont = a ∧
      ofMontgomery (ofUInt256 a.mont).toUInt256 = a ∧
      ofUInt256 (ofMontgomery a.toUInt256).mont = a ∧
      (ofUInt256 a.mont).toZMod = a.toZMod * 2 ^ 256 ∧
      (ofMontgomery a.toUInt256).toZMod = a.toZMod * (2 ^ 256)⁻¹ := by
  have hradix : (2 : ZMod prime) ^ 256 ≠ 0 := pow_ne_zero 256 (by decide)
  refine ⟨fun x => ⟨?_, ?_, toNat_ofCanonical_lt x, toNat_toCanonical_lt x,
    toNat_toCanonical_ofCanonical x, ofCanonical_toCanonical_eq_iff x⟩, fun x => ⟨?_,
    toNat_mont_ofMontgomery x, mont_ofMontgomery_eq_iff x⟩, fun a => ⟨ofMontgomery_mont a, ?_, ?_,
    toZMod_ofUInt256_mont a, toZMod_ofMontgomery_toUInt256 a⟩⟩
  · rw [toNat_ofCanonical, size_eq_two_pow]
  · rw [← natCast_toCanonical, val_natCast_toNat (toNat_toCanonical_lt x)]
  · have hle : ∀ i ≤ x.toNat / prime, i * prime ≤ x.toNat := fun i hi =>
      (Nat.mul_le_mul_right prime hi).trans (Nat.div_mul_le_self _ _)
    have hpass : ∀ i ≤ x.toNat / prime, (modulus ≤ subtractPrime^[i] x ↔ i < x.toNat / prime) :=
      fun i hi => modulus_le_iterate_subtractPrime_iff (hle i hi)
    refine ⟨x.toNat / prime, toNat_div_prime_le x, fun i hi => (hpass i hi.le).2 hi, ?_,
      reduce_eq_iterate_subtractPrime x⟩
    exact Nat.not_le.1 fun h => lt_irrefl _ ((hpass _ le_rfl).1 h)
  · rw [← toZMod_inj, toZMod_ofMontgomery_toUInt256, toZMod_ofUInt256_mont,
      mul_inv_cancel_right₀ hradix]
  · rw [← toZMod_inj, toZMod_ofUInt256_mont, toZMod_ofMontgomery_toUInt256,
      inv_mul_cancel_right₀ hradix]

end Felt

end FieldSponge
