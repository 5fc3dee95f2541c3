import FieldSponge.Proofs.IntegerDivision
import FieldSponge.Proofs.PowerLaws

/-! The two divisions of elements. The power that stands for the inverse is the inverse of the
residue, so field division solves its equation, and there is no result for zero only. Integer
division is that of the canonical values, and the two quotients differ by that of the remainder. -/
namespace FieldSponge
namespace Felt

theorem only_of_eq_ok_iff {result : Except Error Felt} {p : Felt → Prop} {x : Felt}
    (hx : result = .ok x) (h : ∀ y, result = .ok y ↔ p y) : p x ∧ ∀ y, p y → y = x := by
  refine ⟨(h x).1 hx, fun y hy => ?_⟩
  rw [(h y).2 hy] at hx
  exact Except.ok.inj hx

/-- By Fermat's little theorem, the power is the inverse, which for zero is zero. -/
theorem toZMod_pow_inverseExponent (a : Felt) : (a ^ inverseExponent).toZMod = a.toZMod⁻¹ := by
  rw [toZMod_pow, toNat_inverseExponent]
  by_cases h : a.toZMod = 0
  · rw [h, inv_zero, zero_pow (by decide)]
  · refine eq_inv_of_mul_eq_one_left ?_
    rw [← pow_succ, show prime - 2 + 1 = prime - 1 from rfl]
    exact ZMod.pow_card_sub_one_eq_one h

theorem inverse_zero : (0 : Felt).inverse = .error .divisionByZero :=
  if_pos (isZero_iff.2 rfl)

theorem inverse_of_ne_zero {a : Felt} (h : a ≠ 0) : a.inverse = .ok (a ^ inverseExponent) :=
  if_neg (mt isZero_iff.1 h)

theorem inverse_eq_ok_iff {a i : Felt} : a.inverse = .ok i ↔ a * i = 1 := by
  rw [← toZMod_eq_one_iff, toZMod_mul]
  by_cases h : a = 0
  · rw [h, inverse_zero, toZMod_zero, zero_mul]
    simp
  · rw [inverse_of_ne_zero h, Except.ok.injEq, ← toZMod_inj, toZMod_pow_inverseExponent,
      mul_eq_one_iff_inv_eq₀ (mt toZMod_eq_zero_iff.1 h)]

theorem toZMod_mul_of_inverse_eq_ok {a i : Felt} (h : a.inverse = .ok i) :
    a.toZMod * i.toZMod = 1 := by
  rw [← toZMod_mul, inverse_eq_ok_iff.1 h, toZMod_one]

theorem inverse_inverse {a i : Felt} (h : a.inverse = .ok i) : i.inverse = .ok a := by
  rw [inverse_eq_ok_iff, ← toZMod_eq_one_iff, toZMod_mul, mul_comm, toZMod_mul_of_inverse_eq_ok h]

theorem inverse_mul {a b i j : Felt} (hi : a.inverse = .ok i) (hj : b.inverse = .ok j) :
    (a * b).inverse = .ok (i * j) := by
  rw [inverse_eq_ok_iff, ← toZMod_eq_one_iff, toZMod_mul, toZMod_mul, toZMod_mul,
    mul_mul_mul_comm, toZMod_mul_of_inverse_eq_ok hi, toZMod_mul_of_inverse_eq_ok hj, one_mul]

theorem mul_ne_zero_of_ne {a b : Felt} (ha : a ≠ 0) (hb : b ≠ 0) : a * b ≠ 0 := by
  rw [ne_eq, ← toZMod_eq_zero_iff] at ha hb ⊢
  rw [toZMod_mul]
  exact mul_ne_zero ha hb

theorem inverse_eq_error_iff {a : Felt} : a.inverse = .error .divisionByZero ↔ a = 0 := by
  refine ⟨fun h => ?_, fun h => h ▸ inverse_zero⟩
  by_contra hne
  rw [inverse_of_ne_zero hne] at h
  cases h

theorem div_zero_eq_error (a : Felt) : a.div 0 = .error .divisionByZero := by
  rw [div, inverse_zero, Except.map]

theorem div_of_ne_zero (a : Felt) {b : Felt} (h : b ≠ 0) :
    a.div b = .ok (a * b ^ inverseExponent) := by
  rw [div, inverse_of_ne_zero h, Except.map]

theorem div_eq_ok_iff {a b q : Felt} (h : b ≠ 0) : a.div b = .ok q ↔ q * b = a := by
  rw [div_of_ne_zero a h, Except.ok.injEq, ← toZMod_inj, ← toZMod_inj, toZMod_mul, toZMod_mul,
    toZMod_pow_inverseExponent, mul_inv_eq_iff_eq_mul₀ (mt toZMod_eq_zero_iff.1 h), eq_comm]

theorem div_eq_error_iff {a b : Felt} : a.div b = .error .divisionByZero ↔ b = 0 := by
  refine ⟨fun h => ?_, fun h => h ▸ div_zero_eq_error a⟩
  by_contra hne
  rw [div_of_ne_zero a hne] at h
  cases h

/-- Inversion fails for zero only, and gives the only element with product one otherwise. To invert
twice changes nothing, and the inverse of a product is that of its factors. Division fails for a
divisor of zero only, and gives the only element whose product with the divisor is the dividend
otherwise. -/
theorem inverse_unique (a b : Felt) :
    (a.inverse = .error .divisionByZero ↔ a.toNat = 0) ∧
    (a ≠ 0 → ∃ i, a.inverse = .ok i ∧ a * i = 1 ∧ ∀ x, a * x = 1 → x = i) ∧
    (a ≠ 0 → b ≠ 0 → ∃ i j, a.inverse = .ok i ∧ b.inverse = .ok j ∧ i.inverse = .ok a ∧
      a * b ≠ 0 ∧ (a * b).inverse = .ok (i * j)) ∧
    (a.div b = .error .divisionByZero ↔ b = 0) ∧
    (b ≠ 0 → (∃ q, a.div b = .ok q ∧ q * b = a ∧ ∀ x, x * b = a → x = q) ∧
      (a * b).div b = .ok a) := by
  refine ⟨?_, fun ha => ?_, fun ha hb => ?_, div_eq_error_iff, fun hb => ⟨?_, ?_⟩⟩
  · rw [inverse_eq_error_iff, ← toNat_inj, toNat_zero]
  · have hi := inverse_of_ne_zero ha
    exact ⟨_, hi, only_of_eq_ok_iff hi fun _ => inverse_eq_ok_iff⟩
  · have hi := inverse_of_ne_zero ha
    have hj := inverse_of_ne_zero hb
    exact ⟨_, _, hi, hj, inverse_inverse hi, mul_ne_zero_of_ne ha hb, inverse_mul hi hj⟩
  · have hq := div_of_ne_zero a hb
    exact ⟨_, hq, only_of_eq_ok_iff hq fun _ => div_eq_ok_iff hb⟩
  · exact (div_eq_ok_iff hb).2 rfl

theorem toUInt256_ofUInt256 {x : UInt256} (h : x.toNat < prime) : (ofUInt256 x).toUInt256 = x := by
  rw [← UInt256.toNat_inj, toNat_toUInt256, toNat_ofUInt256, Nat.mod_eq_of_lt h]

theorem toUInt256_eq_zero_iff {a : Felt} : a.toUInt256 = 0 ↔ a = 0 := by
  rw [UInt256.eq_zero_iff, toNat_toUInt256, ← toNat_inj, toNat_zero]

theorem exists_divMod (a : Felt) {b : Felt} (hb : b ≠ 0) : ∃ q r, a.divMod b = .ok (q, r) ∧
    a.toUInt256.divMod? b.toUInt256 = some (q.toUInt256, r.toUInt256) := by
  obtain ⟨q, r, hdiv⟩ := UInt256.exists_divMod? (n := a.toUInt256) (mt toUInt256_eq_zero_iff.1 hb)
  obtain ⟨heq, hr⟩ := UInt256.divMod?_eq_some_iff.1 hdiv
  have hrp : r.toNat < prime := hr.trans b.toNat_lt
  have hqp : q.toNat < prime := by
    have hle : q.toNat ≤ q.toNat * b.toUInt256.toNat :=
      Nat.le_mul_of_pos_right _ (Nat.zero_lt_of_lt hr)
    have ha := a.toNat_lt
    rw [toNat_toUInt256] at heq
    omega
  refine ⟨ofUInt256 q, ofUInt256 r, by rw [divMod, hdiv, ofDivMod?], ?_⟩
  rw [toUInt256_ofUInt256 hqp, toUInt256_ofUInt256 hrp, hdiv]

theorem divMod_eq_error_iff {a b : Felt} :
    a.divMod b = .error .divisionByZero ↔ b = 0 := by
  constructor
  · intro h
    by_contra hb
    obtain ⟨q, r, hok, -⟩ := exists_divMod a hb
    rw [hok] at h
    cases h
  · rintro rfl
    rw [divMod, UInt256.divMod?_eq_none_iff.2 (toUInt256_eq_zero_iff.2 rfl), ofDivMod?]

theorem mul_add_eq_of_toNat {a b q r : Felt} (h : a.toNat = q.toNat * b.toNat + r.toNat) :
    q * b + r = a := by
  rw [← toZMod_inj, toZMod_add, toZMod_mul, toZMod, toZMod, toZMod, toZMod, ← Nat.cast_mul,
    ← Nat.cast_add, h]

/-- The field quotient of a dividend is any quotient plus the field quotient of what it leaves. -/
theorem exists_div_of_mul_add {a b q r : Felt} (hb : b ≠ 0) (h : q * b + r = a) :
    ∃ y, r.div b = .ok y ∧ a.div b = .ok (q + y) := by
  obtain ⟨y, hy⟩ : ∃ y, r.div b = .ok y := ⟨_, div_of_ne_zero r hb⟩
  have hyr := toZMod_inj.2 ((div_eq_ok_iff hb).1 hy)
  refine ⟨y, hy, (div_eq_ok_iff hb).2 (toZMod_inj.1 ?_)⟩
  rw [toZMod_mul] at hyr
  rw [← h, toZMod_mul, toZMod_add, toZMod_add, toZMod_mul, add_mul, hyr]

theorem add_eq_self_iff {q y : Felt} : q + y = q ↔ y = 0 := by
  rw [← toZMod_inj, toZMod_add, add_eq_left, toZMod_eq_zero_iff]

/-- A field quotient is zero only if its dividend is. -/
theorem eq_zero_iff_of_div_eq_ok {b r y : Felt} (hb : b ≠ 0) (h : r.div b = .ok y) :
    y = 0 ↔ r = 0 := by
  rw [← (div_eq_ok_iff hb).1 h, ← toZMod_eq_zero_iff, ← toZMod_eq_zero_iff, toZMod_mul,
    mul_eq_zero_iff_right (mt toZMod_eq_zero_iff.1 hb)]

/-- Integer division fails for a divisor of zero only. Otherwise its quotient and its remainder are
those of the canonical values, neither of which is reduced, and the field quotient is the integer
quotient plus the field quotient of the remainder. So the two quotients are the same exactly when
the division is exact. -/
theorem divMod_against_div (a b : Felt) :
    (a.divMod b = .error .divisionByZero ↔ b = 0) ∧
    (b ≠ 0 → ∃ q r, a.divMod b = .ok (q, r) ∧
      a.toUInt256.divMod? b.toUInt256 = some (q.toUInt256, r.toUInt256) ∧
      q.toNat = a.toNat / b.toNat ∧ r.toNat = a.toNat % b.toNat ∧
      q * b + r = a ∧ r < b ∧ q ≤ a ∧
      (∃ x y, a.div b = .ok x ∧ r.div b = .ok y ∧ x = q + y) ∧
      (a.div b = .ok q ↔ r = 0)) := by
  refine ⟨divMod_eq_error_iff, fun hb => ?_⟩
  obtain ⟨q, r, hok, hdiv⟩ := exists_divMod a hb
  obtain ⟨heq, hr⟩ := UInt256.divMod?_eq_some_iff.1 hdiv
  obtain ⟨hq, hr'⟩ := UInt256.toNat_of_divMod?_eq_some hdiv
  have hfield := mul_add_eq_of_toNat heq
  obtain ⟨y, hy, hx⟩ := exists_div_of_mul_add hb hfield
  refine ⟨q, r, hok, hdiv, hq, hr', hfield, hr, ?_, ⟨_, y, hx, hy, rfl⟩, ?_⟩
  · change q.toUInt256.toNat ≤ a.toNat
    rw [hq]
    exact Nat.div_le_self _ _
  · rw [hx, Except.ok.injEq, add_eq_self_iff, eq_zero_iff_of_div_eq_ok hb hy]

end Felt

end FieldSponge
