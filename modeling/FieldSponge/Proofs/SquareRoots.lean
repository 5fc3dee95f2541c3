import FieldSponge.Proofs.PowerLaws
import Mathlib.NumberTheory.LegendreSymbol.Basic

/-! Square roots. Euler's criterion decides which elements are squares. The search keeps the
equation between the square of its candidate, the element sought and the defect, and lowers the
order of the defect in each step, so it ends with a root of every square. -/
namespace FieldSponge
namespace Felt

theorem toZMod_square_pow (a : Felt) (n : ℕ) :
    a.square.toZMod ^ 2 ^ n = a.toZMod ^ 2 ^ (n + 1) := by
  rw [toZMod_square, ← pow_mul, pow_succ' 2 n]

theorem toZMod_squareTimes (a : Felt) (n : ℕ) :
    (a.squareTimes n).toZMod = a.toZMod ^ 2 ^ n := by
  induction n generalizing a with
  | zero => rw [squareTimes, pow_zero, pow_one]
  | succ n ih => rw [squareTimes, ih, toZMod_square_pow]

theorem exists_mul_self_iff {a : Felt} : (∃ y : Felt, y * y = a) ↔ IsSquare a.toZMod := by
  constructor
  · rintro ⟨y, rfl⟩
    exact ⟨y.toZMod, toZMod_mul y y⟩
  · rintro ⟨x, hx⟩
    refine ⟨ofZMod x, toZMod_inj.1 ?_⟩
    rw [toZMod_mul, toZMod_ofZMod, hx]

/-- Euler's criterion. -/
theorem isSquare_iff {a : Felt} : a.isSquare = true ↔ ∃ y : Felt, y * y = a := by
  have hhalf : half.toNat = prime / 2 := by rw [toNat_half]; rfl
  rw [exists_mul_self_iff, isSquare, Bool.or_eq_true, isZero_iff, isOne_iff, ← toZMod_eq_one_iff,
    toZMod_pow, hhalf]
  by_cases h : a = 0
  · simp [h]
  · have h0 : a.toZMod ≠ 0 := fun g => h (toZMod_eq_zero_iff.1 g)
    rw [ZMod.euler_criterion prime h0, or_iff_right h]

theorem isOne_pow_half {a : Felt} (h0 : a ≠ 0) (h : ∃ y : Felt, y * y = a) :
    (a ^ half).isOne = true := by
  have hsq := isSquare_iff.2 h
  rw [isSquare, Bool.or_eq_true] at hsq
  exact hsq.resolve_left (mt isZero_iff.1 h0)

theorem eq_neg_one_of_sq_eq_one {x : ZMod prime} (h : x ^ 2 = 1) (h1 : x ≠ 1) : x = -1 :=
  (mul_self_eq_one_iff.1 ((sq x).symm.trans h)).resolve_left h1

namespace RootSearch

/-- What every step of the search keeps, for the element sought. -/
structure Holds (a : Felt) (s : RootSearch) : Prop where
  order_pos : 0 < s.order
  unity : s.unity.toZMod ^ 2 ^ (s.order - 1) = -1
  defect : s.defect.toZMod ^ 2 ^ (s.order - 1) = 1
  root : s.root.toZMod ^ 2 = a.toZMod * s.defect.toZMod

/-- The count of squarings is found when it is in range, and no smaller one gives one. -/
theorem exists_leastSquarings? {x : Felt} {k : ℕ} (start count : ℕ) (hk : k < count)
    (hx : x.toZMod ^ 2 ^ k = 1) :
    ∃ i ≤ k, leastSquarings? x start count = some (start + i) ∧ x.toZMod ^ 2 ^ i = 1 ∧
      ∀ j < i, x.toZMod ^ 2 ^ j ≠ 1 := by
  induction count generalizing x k start with
  | zero => omega
  | succ count ih =>
    rw [leastSquarings?]
    split
    · rename_i h1
      rw [isOne_iff, ← toZMod_eq_one_iff] at h1
      exact ⟨0, by omega, rfl, by rw [h1, one_pow], by omega⟩
    · rename_i h1
      rw [isOne_iff, ← toZMod_eq_one_iff] at h1
      have hk0 : k ≠ 0 := by
        rintro rfl
        exact h1 (by simpa using hx)
      obtain ⟨k, rfl⟩ := Nat.exists_eq_succ_of_ne_zero hk0
      obtain ⟨i, hi, hsome, hpow, hmin⟩ :=
        ih (start + 1) (by omega) ((toZMod_square_pow x k).trans hx)
      refine ⟨i + 1, by omega, by rw [hsome]; congr 1; omega,
        (toZMod_square_pow x i).symm.trans hpow, ?_⟩
      intro j hj
      cases j with
      | zero => simpa using h1
      | succ j => exact fun h => hmin j (by omega) ((toZMod_square_pow x j).trans h)

/-- A defect other than one has an order `2 ^ i` below the bound, and the search finds `i`. -/
theorem Holds.exists_defectOrder? {a : Felt} {s : RootSearch} (h : s.Holds a) (h1 : s.defect ≠ 1) :
    ∃ i, s.defectOrder? = some i ∧ 1 ≤ i ∧ i < s.order ∧ s.defect.toZMod ^ 2 ^ (i - 1) = -1 := by
  have ht : s.defect.toZMod ≠ 1 := fun g => h1 (toZMod_eq_one_iff.1 g)
  have hm : 2 ≤ s.order := by
    by_contra hlt
    have hone : s.order - 1 = 0 := by omega
    have hd := h.defect
    rw [hone, pow_zero, pow_one] at hd
    exact ht hd
  have hd : s.defect.square.toZMod ^ 2 ^ (s.order - 2) = 1 := by
    rw [toZMod_square_pow, show s.order - 2 + 1 = s.order - 1 by omega, h.defect]
  obtain ⟨i, hi, hsome, hpow, hmin⟩ := exists_leastSquarings? 1 (s.order - 1) (by omega) hd
  refine ⟨1 + i, hsome, by omega, by omega, ?_⟩
  rw [Nat.add_sub_cancel_left]
  refine eq_neg_one_of_sq_eq_one ?_ ?_
  · rw [← pow_mul, ← pow_succ, ← toZMod_square_pow, hpow]
  · cases i with
    | zero => simpa using ht
    | succ i => exact fun g => hmin i (by omega) ((toZMod_square_pow s.defect i).trans g)

theorem Holds.improve {a : Felt} {s : RootSearch} {i : ℕ} (h : s.Holds a) (hi : 1 ≤ i)
    (him : i < s.order) (hd : s.defect.toZMod ^ 2 ^ (i - 1) = -1) : (s.improve i).Holds a := by
  have hb : (s.unity.squareTimes (s.order - i - 1)).square.toZMod
      = s.unity.toZMod ^ 2 ^ (s.order - i) := by
    rw [toZMod_square, toZMod_squareTimes, ← pow_mul, ← pow_succ,
      show s.order - i - 1 + 1 = s.order - i by omega]
  have hc : (s.unity.squareTimes (s.order - i - 1)).square.toZMod ^ 2 ^ (i - 1) = -1 := by
    rw [hb, ← pow_mul, ← pow_add, show s.order - i + (i - 1) = s.order - 1 by omega, h.unity]
  refine ⟨hi, hc, ?_, ?_⟩
  · change (s.defect * _).toZMod ^ 2 ^ (i - 1) = 1
    rw [toZMod_mul, mul_pow, hd, hc, neg_one_mul, neg_neg]
  · change (s.root * _).toZMod ^ 2 = a.toZMod * (s.defect * _).toZMod
    rw [toZMod_mul, toZMod_mul, mul_pow, h.root, toZMod_square, mul_assoc]

theorem Holds.exists_finish? {a : Felt} {s : RootSearch} (h : s.Holds a) :
    ∃ r, s.finish? = some r ∧ r * r = a := by
  induction s using finish?.induct with
  | case1 s hone =>
    rw [isOne_iff] at hone
    refine ⟨s.root, by rw [finish?_eq, if_pos (isOne_iff.2 hone)], toZMod_inj.1 ?_⟩
    rw [toZMod_mul, ← sq, h.root, hone, toZMod_one, mul_one]
  | case2 s hone hnone =>
    rw [isOne_iff] at hone
    obtain ⟨i, hsome, -⟩ := h.exists_defectOrder? hone
    rw [hnone] at hsome
    cases hsome
  | case3 s hone i hi hlt ih =>
    obtain ⟨j, hj, h1, hm, hd⟩ := h.exists_defectOrder? (fun g => hone (isOne_iff.2 g))
    obtain rfl : j = i := Option.some.inj (hj.symm.trans hi)
    obtain ⟨r, hr, hrr⟩ := ih (h.improve h1 hm hd)
    refine ⟨r, ?_, hrr⟩
    rw [finish?_eq, if_neg hone, hj, Option.bind_some, hr]

theorem holds_start {a : Felt} (h : (a ^ half).isOne = true) : (start a).Holds a := by
  rw [isOne_iff, ← toZMod_eq_one_iff, toZMod_pow] at h
  refine ⟨show 0 < twoAdicity by decide, toZMod_rootOfUnity_pow, ?_, ?_⟩
  · change (a ^ oddPart).toZMod ^ 2 ^ (twoAdicity - 1) = 1
    have he : oddPart.toNat * 2 ^ (twoAdicity - 1) = half.toNat := by decide
    rw [toZMod_pow, ← pow_mul, he, h]
  · change (a ^ oddPartHalf).toZMod ^ 2 = a.toZMod * (a ^ oddPart).toZMod
    rw [toZMod_pow, toZMod_pow, ← pow_mul, ← pow_succ', Nat.mul_comm, toNat_oddPartHalf]

end RootSearch

theorem le_neg_iff {a : Felt} : a ≤ -a ↔ a.toNat ≤ (prime - 1) / 2 := by
  have ha := a.toNat_lt
  have hn := toNat_neg a
  change a.toNat ≤ (-a).toNat ↔ _
  simp only [prime] at *
  omega

theorem neg_mul_self (a : Felt) : -a * -a = a * a := by
  rw [← toZMod_inj, toZMod_mul, toZMod_mul, toZMod_neg, neg_mul_neg]

theorem min_neg_le_neg (r : Felt) : min r (-r) ≤ -min r (-r) := by
  have hneg : - -r = r := by rw [← toZMod_inj, toZMod_neg, toZMod_neg, neg_neg]
  change (if r ≤ -r then r else -r) ≤ -(if r ≤ -r then r else -r)
  split
  · assumption
  · rename_i h
    rw [hneg]
    exact Nat.le_of_not_le h

theorem min_neg_le (r : Felt) : min r (-r) ≤ r := by
  change (if r ≤ -r then r else -r) ≤ r
  split
  · exact Nat.le_refl _
  · rename_i h
    exact Nat.le_of_not_le h

theorem min_neg_mul_self (r : Felt) : min r (-r) * min r (-r) = r * r := by
  change (if r ≤ -r then r else -r) * (if r ≤ -r then r else -r) = r * r
  split
  · rfl
  · exact neg_mul_self r

/-- The root in the lower half is unique. -/
theorem eq_of_mul_self_eq {r s : Felt} (h : r * r = s * s) (hr : r ≤ -r) (hs : s ≤ -s) : r = s := by
  have hz : r.toZMod * r.toZMod = s.toZMod * s.toZMod := by rw [← toZMod_mul, h, toZMod_mul]
  rcases mul_self_eq_mul_self_iff.1 hz with e | e
  · exact toZMod_inj.1 e
  · have hrs : r = -s := toZMod_inj.1 (by rw [e, toZMod_neg])
    have hsr : s = -r := toZMod_inj.1 (by rw [toZMod_neg, e, neg_neg])
    rw [← hsr] at hr
    rw [← hrs] at hs
    exact toNat_inj.1 (Nat.le_antisymm hr hs)

theorem exists_sqrt? {a : Felt} (h : ∃ y : Felt, y * y = a) :
    ∃ r, a.sqrt? = some r ∧ r * r = a ∧ r ≤ -r := by
  rw [sqrt?]
  split
  · rename_i hz
    rw [isZero_iff] at hz
    subst hz
    refine ⟨0, rfl, toZMod_inj.1 ?_, le_neg_iff.2 ?_⟩
    · rw [toZMod_mul, toZMod_zero, mul_zero]
    · rw [toNat_zero]
      exact Nat.zero_le _
  · rename_i hz
    have hone := isOne_pow_half (mt isZero_iff.2 hz) h
    obtain ⟨r, hr, hrr⟩ := (RootSearch.holds_start hone).exists_finish?
    rw [if_pos (isSquare_iff.2 h), hr]
    exact ⟨min r (-r), rfl, (min_neg_mul_self r).trans hrr, min_neg_le_neg r⟩

theorem sqrt?_eq_none {a : Felt} (h : ¬ ∃ y : Felt, y * y = a) : a.sqrt? = none := by
  have hsq : ¬ a.isSquare = true := fun g => h (isSquare_iff.1 g)
  have hz : ¬ a.isZero = true := fun g => hsq (by rw [isSquare, g, Bool.true_or])
  rw [sqrt?, if_neg hz, if_neg hsq]

theorem sqrt?_eq_some_iff {a r : Felt} : a.sqrt? = some r ↔ r * r = a ∧ r ≤ -r := by
  constructor
  · intro h
    by_cases hex : ∃ y : Felt, y * y = a
    · obtain ⟨s, hs, hss⟩ := exists_sqrt? hex
      obtain rfl : s = r := Option.some.inj (hs.symm.trans h)
      exact hss
    · rw [sqrt?_eq_none hex] at h
      cases h
  · rintro ⟨rfl, hle⟩
    obtain ⟨s, hs, hss, hsle⟩ := exists_sqrt? ⟨r, rfl⟩
    rw [hs, eq_of_mul_self_eq hss hsle hle]

/-- The square root is there for squares only, and it is the root of smaller canonical value. -/
theorem squareRoot_least (a : Felt) :
    (a.isSquare = true ↔ ∃ y : Felt, y * y = a) ∧
    ((∃ r, a.sqrt? = some r) ↔ ∃ y : Felt, y * y = a) ∧
    (a.sqrt? = none ↔ ¬ ∃ y : Felt, y * y = a) ∧
    (∀ r, a.sqrt? = some r →
      r * r = a ∧ r ≤ -r ∧ r.toNat ≤ (prime - 1) / 2 ∧ ∀ y : Felt, y * y = a → r ≤ y) ∧
    a.square.sqrt? = some (min a (-a)) := by
  have hsome : (∃ r, a.sqrt? = some r) ↔ ∃ y : Felt, y * y = a := by
    constructor
    · rintro ⟨r, hr⟩
      exact ⟨r, (sqrt?_eq_some_iff.1 hr).1⟩
    · intro h
      obtain ⟨r, hr, -⟩ := exists_sqrt? h
      exact ⟨r, hr⟩
  refine ⟨isSquare_iff, hsome, ?_, ?_, ?_⟩
  · rw [← hsome, Option.eq_none_iff_forall_ne_some, not_exists]
  · intro r hr
    obtain ⟨hrr, hle⟩ := sqrt?_eq_some_iff.1 hr
    refine ⟨hrr, hle, le_neg_iff.1 hle, ?_⟩
    rintro y rfl
    rw [eq_of_mul_self_eq (hrr.trans (min_neg_mul_self y).symm) hle (min_neg_le_neg y)]
    exact min_neg_le y
  · exact sqrt?_eq_some_iff.2 ⟨min_neg_mul_self a, min_neg_le_neg a⟩

end Felt

end FieldSponge
