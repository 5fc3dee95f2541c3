import FieldSponge.Decimal
import Mathlib.Algebra.Order.Field.Power
import Mathlib.Algebra.Order.Field.Rat
import Mathlib.Tactic.Linarith
import Mathlib.Tactic.Positivity
import Mathlib.Tactic.Ring

/-! The decimal that is printed for a binary number. It is rounded to the number when it is read, no
decimal that is has fewer digits, and among those with as many digits none is nearer. The digits are
looked for on coarse grids first, and a grid is asked in integers. -/
namespace FieldSponge
namespace Binary

theorem zpow_mul_pow_toNat {a : ℚ} (ha : a ≠ 0) (e : ℤ) : a ^ e * a ^ (-e).toNat = a ^ e.toNat := by
  rw [← zpow_natCast, ← zpow_natCast, ← zpow_add₀ ha]
  congr 1
  omega

theorem denominator_pos (e k : ℤ) : 0 < denominator e k := by
  simp only [denominator, Nat.shiftLeft_eq, Nat.pow_eq]
  positivity

theorem numerator_mul (n : ℕ) (e k : ℤ) :
    (numerator n e k : ℚ) * 10 ^ k = n * 2 ^ e * denominator e k := by
  have hten := zpow_mul_pow_toNat (a := 10) (by norm_num) k
  have htwo := zpow_mul_pow_toNat (a := 2) (by norm_num) e
  simp only [numerator, denominator, Nat.shiftLeft_eq, Nat.pow_eq]
  push_cast
  rw [← hten, ← htwo]
  ring

/-- Comparisons with a multiple of a power of ten are made in integers. -/
theorem numerator_le_iff (n : ℕ) (e k : ℤ) (d : ℕ) :
    numerator n e k ≤ d * denominator e k ↔ (n : ℚ) * 2 ^ e ≤ d * 10 ^ k := by
  have hunit : (0 : ℚ) < denominator e k := by exact_mod_cast denominator_pos e k
  have hten : (0 : ℚ) < 10 ^ k := by positivity
  rw [← Nat.cast_le (α := ℚ), Nat.cast_mul, ← mul_le_mul_iff_left₀ hten, numerator_mul,
    mul_right_comm (d : ℚ), mul_le_mul_iff_left₀ hunit]

theorem le_numerator_iff (n : ℕ) (e k : ℤ) (d : ℕ) :
    d * denominator e k ≤ numerator n e k ↔ (d : ℚ) * 10 ^ k ≤ n * 2 ^ e := by
  have hunit : (0 : ℚ) < denominator e k := by exact_mod_cast denominator_pos e k
  have hten : (0 : ℚ) < 10 ^ k := by positivity
  rw [← Nat.cast_le (α := ℚ), Nat.cast_mul, ← mul_le_mul_iff_left₀ hten, numerator_mul,
    mul_right_comm (d : ℚ), mul_le_mul_iff_left₀ hunit]

def value (b : Binary) : ℚ := b.significand * 2 ^ b.exponent

/-- How far down the numbers reach that are rounded to this one. -/
def below (b : Binary) : ℚ := 2 ^ (b.exponent - 2) * if b.narrowBelow then 1 else 2

def above (b : Binary) : ℚ := 2 ^ (b.exponent - 2) * 2

/-- Whether a number is rounded to this one. The ends of the interval are when it is even. -/
def StandsFor (b : Binary) (r : ℚ) : Prop :=
  if b.significand % 2 = 0 then b.value - b.below ≤ r ∧ r ≤ b.value + b.above
  else b.value - b.below < r ∧ r < b.value + b.above

theorem below_pos (b : Binary) : 0 < b.below := by
  rw [below]
  split <;> positivity

theorem above_pos (b : Binary) : 0 < b.above := by
  rw [above]
  positivity

theorem standsFor_value (b : Binary) : b.StandsFor b.value := by
  have hbelow := b.below_pos
  have habove := b.above_pos
  rw [StandsFor]
  split <;> constructor <;> linarith

theorem StandsFor.between {b : Binary} {r s t : ℚ} (hr : b.StandsFor r) (ht : b.StandsFor t)
    (hrs : r ≤ s) (hst : s ≤ t) : b.StandsFor s := by
  rw [StandsFor] at *
  split at hr <;> rename_i h <;> simp only [h, if_true, if_false] at ht ⊢
  · exact ⟨hr.1.trans hrs, hst.trans ht.2⟩
  · exact ⟨hr.1.trans_le hrs, hst.trans_lt ht.2⟩

theorem value_eq (b : Binary) : b.value = (4 * b.significand : ℕ) * 2 ^ (b.exponent - 2) := by
  rw [value, zpow_sub₀ (by norm_num)]
  push_cast
  ring

theorem covers_iff {b : Binary} (hpos : 0 < b.significand) (k : ℤ) (d : ℕ) :
    b.covers k d = true ↔ b.StandsFor (d * 10 ^ k) := by
  have hlow : ((4 * b.significand - if b.narrowBelow then 1 else 2 : ℕ) : ℚ) *
      2 ^ (b.exponent - 2) = b.value - b.below := by
    rw [Nat.cast_sub (by split <;> omega), sub_mul, ← value_eq, below]
    split <;> push_cast <;> ring
  have hhigh : ((4 * b.significand + 2 : ℕ) : ℚ) * 2 ^ (b.exponent - 2) = b.value + b.above := by
    rw [Nat.cast_add, add_mul, ← value_eq, above]
    push_cast
    ring
  rw [covers, StandsFor]
  split
  · rw [Bool.and_eq_true, decide_eq_true_iff, decide_eq_true_iff, numerator_le_iff,
      le_numerator_iff, hlow, hhigh]
  · rw [Bool.and_eq_true, decide_eq_true_iff, decide_eq_true_iff, ← not_le, ← not_le, ← not_le,
      ← not_le, numerator_le_iff, le_numerator_iff, hlow, hhigh]

theorem floorOn_le (b : Binary) (k : ℤ) : (b.floorOn k : ℚ) * 10 ^ k ≤ b.value := by
  rw [value_eq, ← le_numerator_iff]
  exact Nat.div_mul_le_self _ _

theorem lt_floorOn_add_one (b : Binary) (k : ℤ) : b.value < (b.floorOn k + 1 : ℕ) * 10 ^ k := by
  rw [value_eq, ← not_le, ← le_numerator_iff, not_le, Nat.add_mul, Nat.one_mul]
  exact Nat.lt_div_mul_add (denominator_pos _ _)

theorem le_floorOn_or (b : Binary) (k : ℤ) (d : ℕ) :
    (d : ℚ) * 10 ^ k ≤ b.floorOn k * 10 ^ k ∨
      (b.floorOn k + 1 : ℕ) * 10 ^ k ≤ (d : ℚ) * 10 ^ k := by
  have hten : (0 : ℚ) < 10 ^ k := by positivity
  rcases Nat.lt_or_ge (b.floorOn k) d with h | h
  · exact .inr (mul_le_mul_of_nonneg_right (Nat.cast_le.2 h) hten.le)
  · exact .inl (mul_le_mul_of_nonneg_right (Nat.cast_le.2 h) hten.le)

theorem not_standsFor_of_onGrid?_eq_none {b : Binary} (hpos : 0 < b.significand) {k : ℤ}
    (h : b.onGrid? k = none) (d : ℕ) : ¬ b.StandsFor (d * 10 ^ k) := by
  have hfloor : ¬ b.covers k (b.floorOn k) = true := fun hc => by
    simp only [onGrid?, hc, if_true] at h
    split_ifs at h
  have hceil : ¬ b.covers k (b.floorOn k + 1) = true := fun hc => by
    simp only [onGrid?, hc, if_true] at h
    split_ifs at h
  rw [covers_iff hpos] at hfloor hceil
  intro hd
  rcases b.le_floorOn_or k d with hle | hle
  · exact hfloor (hd.between b.standsFor_value hle (b.floorOn_le k))
  · exact hceil (b.standsFor_value.between hd (b.lt_floorOn_add_one k).le hle)

theorem StandsFor.pos {b : Binary} (hpos : 0 < b.significand) {r : ℚ} (hr : b.StandsFor r) :
    0 < r := by
  have hquarter : (0 : ℚ) < 2 ^ (b.exponent - 2) := by positivity
  have hbelow : b.below ≤ 2 ^ (b.exponent - 2) * 2 := by
    rw [below]
    split <;> linarith
  have hvalue : 2 ^ (b.exponent - 2) * 4 ≤ b.value := by
    rw [value_eq, mul_comm]
    exact mul_le_mul_of_nonneg_right (by exact_mod_cast Nat.mul_le_mul_left 4 hpos) hquarter.le
  have hlow : b.value - b.below ≤ r := by
    rw [StandsFor] at hr
    split at hr
    · exact hr.1
    · exact hr.1.le
  linarith

/-- The neighbour that is taken stands for the number, and the other one does not or is no
nearer. -/
theorem onGrid?_cases {b : Binary} (hpos : 0 < b.significand) {k : ℤ} {d : ℕ}
    (h : b.onGrid? k = some d) :
    (d = b.floorOn k ∧ b.StandsFor (d * 10 ^ k) ∧
      (b.StandsFor ((b.floorOn k + 1 : ℕ) * 10 ^ k) →
        2 * b.value ≤ (2 * b.floorOn k + 1 : ℕ) * 10 ^ k)) ∨
    (d = b.floorOn k + 1 ∧ b.StandsFor (d * 10 ^ k) ∧
      (b.StandsFor (b.floorOn k * 10 ^ k) → (2 * b.floorOn k + 1 : ℕ) * 10 ^ k ≤ 2 * b.value)) := by
  have hdouble : ∀ n e, 2 * numerator n e k = numerator (2 * n) e k := fun n e => by
    simp only [numerator, Nat.shiftLeft_eq]
    ring
  have htwice : 2 * b.value = (2 * (4 * b.significand) : ℕ) * 2 ^ (b.exponent - 2) := by
    rw [value_eq]
    push_cast
    ring
  simp only [onGrid?, hdouble] at h
  split_ifs at h with hfloor hceil hless hceil <;> cases Option.some.inj h
  · refine .inl ⟨rfl, (covers_iff hpos k _).1 hfloor, fun _ => ?_⟩
    rw [htwice, ← numerator_le_iff]
    exact hless.elim Nat.le_of_lt fun h => h.1.le
  · refine .inr ⟨rfl, (covers_iff hpos k _).1 hceil, fun _ => ?_⟩
    rw [htwice, ← le_numerator_iff]
    exact Nat.le_of_not_lt fun hlt => hless (.inl hlt)
  · exact .inl ⟨rfl, (covers_iff hpos k _).1 hfloor, fun hc =>
      absurd ((covers_iff hpos k _).2 hc) hceil⟩
  · exact .inr ⟨rfl, (covers_iff hpos k _).1 hceil, fun hc =>
      absurd ((covers_iff hpos k _).2 hc) hfloor⟩

/-- What is taken on a grid is the nearest of its multiples that stand for the number. -/
theorem onGrid?_nearest {b : Binary} (hpos : 0 < b.significand) {k : ℤ} {d : ℕ}
    (h : b.onGrid? k = some d) {d' : ℕ} (hd' : b.StandsFor (d' * 10 ^ k)) :
    |(d : ℚ) * 10 ^ k - b.value| ≤ |(d' : ℚ) * 10 ^ k - b.value| := by
  have hfloor := b.floorOn_le k
  have hceil := (b.lt_floorOn_add_one k).le
  have hmiddle : (2 * b.floorOn k + 1 : ℕ) * 10 ^ k =
      (b.floorOn k : ℚ) * 10 ^ k + (b.floorOn k + 1 : ℕ) * 10 ^ k := by
    push_cast
    ring
  have hcases := onGrid?_cases hpos h
  rw [hmiddle] at hcases
  rcases b.le_floorOn_or k d' with hle | hle
  · have hstands := hd'.between b.standsFor_value hle hfloor
    rw [abs_of_nonpos (a := (d' : ℚ) * 10 ^ k - b.value) (by linarith)]
    rcases hcases with ⟨rfl, -, -⟩ | ⟨rfl, -, hnear⟩
    · rw [abs_of_nonpos (by linarith)]
      linarith
    · rw [abs_of_nonneg (by linarith)]
      linarith [hnear hstands]
  · have hstands := b.standsFor_value.between hd' hceil hle
    rw [abs_of_nonneg (a := (d' : ℚ) * 10 ^ k - b.value) (by linarith)]
    rcases hcases with ⟨rfl, -, hnear⟩ | ⟨rfl, -, -⟩
    · rw [abs_of_nonpos (by linarith)]
      linarith [hnear hstands]
    · rw [abs_of_nonneg (by linarith)]
      linarith

structure IsDouble (b : Binary) : Prop where
  pos : 0 < b.significand
  lt : b.significand < 2 ^ 53
  exponent : -1074 ≤ b.exponent
  narrow : b.narrowBelow = true → b.significand = 2 ^ 52

theorem pow_le_of_length_toDigits {n l : ℕ} (hn : 0 < n) (h : (Nat.toDigits 10 n).length = l + 1) :
    10 ^ l ≤ n ∧ n < 10 ^ (l + 1) := by
  refine ⟨?_, (Nat.length_toDigits_le_iff (by decide) l.succ_pos).1 h.le⟩
  rcases Nat.eq_zero_or_pos l with rfl | hl
  · exact hn
  · rw [← not_lt, ← Nat.length_toDigits_le_iff (by decide) hl, h]
    exact Nat.not_succ_le_self l

theorem le_value_iff (b : Binary) (k : ℤ) : (10 : ℚ) ^ k ≤ b.value ↔
    denominator b.exponent k ≤ numerator b.significand b.exponent k := by
  rw [value, ← one_mul ((10 : ℚ) ^ k), ← Nat.cast_one, ← le_numerator_iff, Nat.one_mul]

theorem numerator_neg (n j : ℕ) (e : ℤ) : numerator n e (-j) = numerator n e 0 * 10 ^ j := by
  simp only [numerator, Nat.shiftLeft_eq, Nat.pow_eq, neg_neg, Int.toNat_natCast, neg_zero,
    Int.toNat_zero, pow_zero, mul_one]
  ring

theorem denominator_neg (j : ℕ) (e : ℤ) : denominator e (-j) = denominator e 0 := by
  simp only [denominator, Int.toNat_neg_natCast, Int.toNat_zero]

theorem two_pow_le_ten_pow {i j : ℕ} (h : i ≤ 3 * j) : 2 ^ i ≤ 10 ^ j :=
  calc 2 ^ i ≤ 2 ^ (3 * j) := Nat.pow_le_pow_right (by decide) h
    _ = 8 ^ j := by rw [pow_mul]; rfl
    _ ≤ 10 ^ j := Nat.pow_le_pow_left (by decide) j

/-- Ten to the decimal exponent is the greatest power of ten up to the number. -/
theorem decimalExponent_spec {b : Binary} (h : b.IsDouble) :
    (10 : ℚ) ^ b.decimalExponent ≤ b.value ∧ b.value < 10 ^ (b.decimalExponent + 1) := by
  have hden := denominator_pos b.exponent 0
  rw [← not_le, decimalExponent]
  split
  · rename_i hle
    have hpos := Nat.div_pos hle hden
    obtain ⟨l, hl⟩ := Nat.exists_eq_succ_of_ne_zero (Nat.ne_of_gt (Nat.length_toDigits_pos (b := 10)
      (n := numerator b.significand b.exponent 0 / denominator b.exponent 0)))
    obtain ⟨hlow, hhigh⟩ := pow_le_of_length_toDigits hpos hl
    rw [Nat.le_div_iff_mul_le hden, le_numerator_iff, ← value, zpow_zero, mul_one, Nat.cast_pow,
      ← zpow_natCast] at hlow
    rw [Nat.div_lt_iff_lt_mul hden, ← not_le, le_numerator_iff, ← value, zpow_zero, mul_one,
      Nat.cast_pow, ← zpow_natCast] at hhigh
    rw [hl, show ((l.succ : ℕ) : ℤ) - 1 = l by push_cast; ring]
    exact ⟨hlow, hhigh⟩
  · rename_i hlt
    obtain ⟨l, hl, hle⟩ : ∃ l ∈ List.range 400,
        denominator b.exponent 0 ≤ numerator b.significand b.exponent 0 * Nat.pow 10 l := by
      obtain ⟨l, hl⟩ : ∃ l, l = 399 := ⟨_, rfl⟩
      refine ⟨l, List.mem_range.2 (by omega), le_trans ?_ (Nat.le_mul_of_pos_left _ ?_)⟩
      · have hexponent := h.exponent
        simp only [denominator, Int.toNat_zero, Nat.pow_eq, pow_zero, Nat.shiftLeft_eq, one_mul]
        exact two_pow_le_ten_pow (by omega)
      · have hpos := h.pos
        simp only [numerator, Nat.shiftLeft_eq, Nat.pow_eq]
        positivity
    cases hj : (List.range 400).find? fun j =>
        denominator b.exponent 0 ≤ numerator b.significand b.exponent 0 * Nat.pow 10 j with
    | none => exact absurd (decide_eq_true hle) (List.find?_eq_none.1 hj l hl)
    | some j =>
      obtain ⟨hpow, -, hfirst⟩ := List.find?_range_eq_some.1 hj
      rw [decide_eq_true_iff, Nat.pow_eq] at hpow
      obtain ⟨i, rfl⟩ : ∃ i, j = i + 1 := Nat.exists_eq_succ_of_ne_zero fun hzero => by
        rw [hzero, pow_zero, mul_one] at hpow
        exact hlt hpow
      have hi := hfirst i (Nat.lt_succ_self i)
      rw [Bool.not_eq_true', decide_eq_false_iff_not, Nat.pow_eq] at hi
      rw [Option.getD_some, show -((i + 1 : ℕ) : ℤ) + 1 = -(i : ℤ) by push_cast; ring,
        le_value_iff, le_value_iff, numerator_neg, numerator_neg, denominator_neg, denominator_neg]
      exact ⟨hpow, hi⟩

/-- A grid without a multiple that stands for the number is as wide as what does. -/
theorem width_le_of_onGrid?_eq_none {b : Binary} (hpos : 0 < b.significand) {k : ℤ}
    (h : b.onGrid? k = none) : b.below + b.above ≤ 10 ^ k := by
  have hfloor := not_standsFor_of_onGrid?_eq_none hpos h (b.floorOn k)
  have hceil := not_standsFor_of_onGrid?_eq_none hpos h (b.floorOn k + 1)
  have hfloor_le := b.floorOn_le k
  have hlt_ceil := b.lt_floorOn_add_one k
  have hbelow := b.below_pos
  have habove := b.above_pos
  have hstep : ((b.floorOn k + 1 : ℕ) : ℚ) * 10 ^ k = b.floorOn k * 10 ^ k + 10 ^ k := by
    push_cast
    ring
  rw [StandsFor] at hfloor hceil
  split at hfloor <;> rename_i heven <;>
    simp only [heven, if_true, if_false, not_and, not_le, not_lt] at hfloor hceil
  · have hlow : b.floorOn k * 10 ^ k < b.value - b.below := by
      by_contra hlow
      linarith [hfloor (not_lt.1 hlow)]
    have hhigh := hceil (by linarith)
    linarith
  · have hlow : b.floorOn k * 10 ^ k ≤ b.value - b.below := by
      by_contra hlow
      linarith [hfloor (not_le.1 hlow)]
    have hhigh := hceil (by linarith)
    linarith

/-- Seventeen digits are enough. -/
theorem exists_onGrid? {b : Binary} (h : b.IsDouble) :
    ∃ d, b.onGrid? (b.decimalExponent - 16) = some d := by
  rw [← Option.isSome_iff_exists, Option.isSome_iff_ne_none]
  intro hnone
  have hwidth := width_le_of_onGrid?_eq_none h.pos hnone
  have hlow := (decimalExponent_spec h).1
  have hquarter : (0 : ℚ) < 2 ^ (b.exponent - 2) := by positivity
  have hten : (10 : ℚ) ^ b.decimalExponent = 10 ^ (b.decimalExponent - 16) * 10 ^ 16 := by
    rw [← zpow_natCast, ← zpow_add₀ (by norm_num)]
    congr 1
    push_cast
    ring
  rw [value_eq, hten] at hlow
  rw [below, above] at hwidth
  push_cast at hlow
  cases hnarrow : b.narrowBelow with
  | false =>
    have hlt : (b.significand : ℚ) < 2 ^ 53 := by exact_mod_cast h.lt
    have hle : 4 * 10 ^ 16 * 2 ^ (b.exponent - 2) ≤
        4 * (b.significand : ℚ) * 2 ^ (b.exponent - 2) := by
      rw [hnarrow, if_neg Bool.false_ne_true] at hwidth
      linarith
    linarith [le_of_mul_le_mul_right hle hquarter]
  | true =>
    have heq : (b.significand : ℚ) = 2 ^ 52 := by exact_mod_cast h.narrow hnarrow
    have hle : 3 * 10 ^ 16 * 2 ^ (b.exponent - 2) ≤
        4 * (b.significand : ℚ) * 2 ^ (b.exponent - 2) := by
      rw [hnarrow, if_pos rfl] at hwidth
      linarith
    linarith [le_of_mul_le_mul_right hle hquarter]

end Binary

namespace Decimal

def value (x : Decimal) : ℚ := x.digits * 10 ^ x.exponent

theorem value_div_ten {d : ℕ} (h : d % 10 = 0) (e : ℤ) : value ⟨d / 10, e + 1⟩ = value ⟨d, e⟩ := by
  have hdigits : (d : ℚ) = (d / 10 : ℕ) * 10 := by
    exact_mod_cast (Nat.div_mul_cancel (Nat.dvd_of_mod_eq_zero h)).symm
  rw [value, value, hdigits, zpow_add_one₀ (by norm_num)]
  ring

theorem value_withoutZeros (x : Decimal) : x.withoutZeros.value = x.value := by
  fun_induction withoutZeros x with
  | case1 x h ih => rw [ih, value_div_ten h.2]
  | case2 x h => rfl

theorem withoutZeros_of_mod_ne_zero {x : Decimal} (h : x.digits % 10 ≠ 0) : x.withoutZeros = x := by
  rw [withoutZeros, dif_neg fun hx => h hx.2]

theorem exists_shortest_eq {b : Binary} (h : b.IsDouble) : ∃ (n : ℕ) (d : ℕ), n < 17 ∧
    b.onGrid? (b.decimalExponent - n) = some d ∧
    (∀ i < n, b.onGrid? (b.decimalExponent - i) = none) ∧
    shortest b = withoutZeros ⟨d, b.decimalExponent - n⟩ := by
  rw [shortest, List.findSome?_map]
  cases hx : (List.range 17).findSome? _ with
  | none =>
    obtain ⟨d, hd⟩ := Binary.exists_onGrid? h
    have hnone := List.findSome?_eq_none_iff.1 hx 16 (List.mem_range.2 (by decide))
    rw [Function.comp_apply, Option.map_eq_none_iff] at hnone
    exact absurd (hd.symm.trans hnone) (Option.some_ne_none d)
  | some x =>
    obtain ⟨before, n, rest, hsplit, hn, hbefore⟩ := List.findSome?_eq_some_iff.1 hx
    obtain ⟨d, hd, rfl⟩ := Option.map_eq_some_iff.1 hn
    have hmem : n ∈ List.range 17 := by simp [hsplit]
    refine ⟨n, d, List.mem_range.1 hmem, hd, fun i hi => ?_, rfl⟩
    have hordered : (before ++ n :: rest).Pairwise (· < ·) := hsplit ▸ List.pairwise_lt_range
    have hrest := (List.pairwise_cons.1 (List.pairwise_append.1 hordered).2.1).1
    have hi' : i ∈ before ++ n :: rest :=
      hsplit ▸ List.mem_range.2 (hi.trans (List.mem_range.1 hmem))
    rcases List.mem_append.1 hi' with hin | hout
    · exact Option.map_eq_none_iff.1 (hbefore i hin)
    · rcases List.mem_cons.1 hout with rfl | hout
      · exact absurd hi (lt_irrefl _)
      · exact absurd hi (hrest i hout).not_gt

def length (x : Decimal) : ℕ := (Nat.toDigits 10 x.digits).length

theorem mul_zpow_eq (c : ℕ) {j k : ℤ} (h : k ≤ j) :
    (c : ℚ) * 10 ^ j = (c * 10 ^ (j - k).toNat : ℕ) * 10 ^ k := by
  push_cast
  rw [← zpow_natCast, Int.toNat_of_nonneg (by omega), mul_assoc, ← zpow_add₀ (by norm_num),
    sub_add_cancel]

theorem length_pos (x : Decimal) : 0 < x.length := Nat.length_toDigits_pos

theorem length_le_iff (x : Decimal) {l : ℕ} (hl : 0 < l) : x.length ≤ l ↔ x.digits < 10 ^ l :=
  Nat.length_toDigits_le_iff (by decide) hl

theorem value_lt {x : Decimal} {l : ℕ} (h : x.digits < 10 ^ l) :
    x.value < 10 ^ (l + x.exponent : ℤ) := by
  rw [value, zpow_add₀ (by norm_num), zpow_natCast]
  exact mul_lt_mul_of_pos_right (by exact_mod_cast h) (by positivity)

variable {b : Binary}

theorem digits_pos (h : b.IsDouble) {x : Decimal} (hx : b.StandsFor x.value) : 0 < x.digits := by
  refine Nat.pos_of_ne_zero fun hzero => absurd (hx.pos h.pos) ?_
  rw [value, hzero, Nat.cast_zero, zero_mul]
  exact lt_irrefl 0

theorem le_ten_of_onGrid? (h : b.IsDouble) {d : ℕ}
    (hd : b.onGrid? b.decimalExponent = some d) : d ≤ 10 := by
  have hten : (0 : ℚ) < 10 ^ b.decimalExponent := by positivity
  have hfloor : b.floorOn b.decimalExponent < 10 := by
    have hlt := (b.floorOn_le b.decimalExponent).trans_lt (Binary.decimalExponent_spec h).2
    rw [zpow_add_one₀ (by norm_num), mul_comm ((10 : ℚ) ^ b.decimalExponent)] at hlt
    exact_mod_cast lt_of_mul_lt_mul_right hlt hten.le
  rcases Binary.onGrid?_cases h.pos hd with ⟨rfl, -⟩ | ⟨rfl, -⟩ <;> omega

theorem withoutZeros_ten (e : ℤ) : withoutZeros ⟨10, e⟩ = ⟨1, e + 1⟩ := by
  have hone : withoutZeros ⟨10 / 10, e + 1⟩ = ⟨10 / 10, e + 1⟩ :=
    withoutZeros_of_mod_ne_zero (by norm_num)
  rw [withoutZeros, dif_pos ⟨by norm_num, by norm_num⟩]
  exact hone

theorem standsFor_of_onGrid? (hpos : 0 < b.significand) {k : ℤ} {d : ℕ}
    (hd : b.onGrid? k = some d) : b.StandsFor (mk d k).value :=
  (Binary.onGrid?_cases hpos hd).elim (fun h => h.2.1) fun h => h.2.1

theorem length_withoutZeros_eq_one (h : b.IsDouble) {d : ℕ}
    (hd : b.onGrid? b.decimalExponent = some d) :
    (withoutZeros ⟨d, b.decimalExponent⟩).length = 1 := by
  refine le_antisymm ?_ (length_pos _)
  rw [length_le_iff _ Nat.one_pos]
  rcases (le_ten_of_onGrid? h hd).lt_or_eq with hlt | rfl
  · have hpos : 0 < d := digits_pos h (standsFor_of_onGrid? h.pos hd)
    have hmod : d % 10 ≠ 0 := by omega
    rwa [withoutZeros_of_mod_ne_zero hmod]
  · rw [withoutZeros_ten]
    norm_num

theorem nearest_of_coarsest (h : b.IsDouble) {d : ℕ} (hd : b.onGrid? b.decimalExponent = some d)
    {y : Decimal} (hy : b.StandsFor y.value) (hlength : y.length = 1) :
    |(mk d b.decimalExponent).value - b.value| ≤ |y.value - b.value| := by
  have hlow := (Binary.decimalExponent_spec h).1
  rcases le_or_gt b.decimalExponent y.exponent with hle | hlt
  · rw [value, value, mul_zpow_eq _ hle] at *
    exact Binary.onGrid?_nearest h.pos hd hy
  · -- The power of ten itself is between the two, and what is taken is no farther away.
    have hvalue : y.value ≤ 10 ^ b.decimalExponent :=
      (value_lt ((y.length_le_iff Nat.one_pos).1 hlength.le)).le.trans
        (zpow_le_zpow_right₀ (by norm_num) (by push_cast; omega))
    have hone : ((1 : ℕ) : ℚ) * 10 ^ b.decimalExponent = 10 ^ b.decimalExponent := by
      rw [Nat.cast_one, one_mul]
    have hnear := Binary.onGrid?_nearest h.pos hd
      (hone.symm ▸ hy.between b.standsFor_value hvalue hlow)
    rw [hone, abs_of_nonpos (a := (10 : ℚ) ^ _ - _) (by linarith)] at hnear
    rw [abs_of_nonpos (a := y.value - _) (by linarith)]
    exact hnear.trans (by linarith)

/-- Nothing of a grid without anything that stands for the number is on a coarser one. -/
theorem not_standsFor_of_coarser (hpos : 0 < b.significand) {k : ℤ} (h : b.onGrid? k = none)
    {y : Decimal} (hk : k ≤ y.exponent) : ¬ b.StandsFor y.value := by
  rw [value, mul_zpow_eq _ hk]
  exact Binary.not_standsFor_of_onGrid?_eq_none hpos h _

theorem value_one (e : ℤ) : value ⟨1, e⟩ = 10 ^ e := by
  rw [value, Nat.cast_one, one_mul]

/-- Where a coarser grid has nothing that stands for the number, what stands for it on this one has
more than one digit, and the power of ten at the first of them separates zero from all that does. -/
theorem of_coarser_eq_none (h : b.IsDouble) {k : ℤ} (hk : k + 1 ≤ b.decimalExponent) {d : ℕ}
    (hd : b.onGrid? k = some d) (hcoarser : b.onGrid? (k + 1) = none) :
    d % 10 ≠ 0 ∧ ∃ l : ℕ, (mk d k).length = l + 2 ∧
      ∀ y : Decimal, b.StandsFor y.value → y.exponent ≤ k ∧ (10 : ℚ) ^ (l + 1 + k) ≤ y.value := by
  have hstands := standsFor_of_onGrid? h.pos hd
  have hnot := fun y : Decimal => not_standsFor_of_coarser (y := y) h.pos hcoarser
  have hmod : d % 10 ≠ 0 := fun hmod =>
    hnot ⟨d / 10, k + 1⟩ le_rfl ((value_div_ten hmod k).symm ▸ hstands)
  have hlong : ¬ (mk d k).length ≤ 1 := fun hshort => by
    have hlt := value_lt ((length_le_iff _ Nat.one_pos).1 hshort)
    have hle := (zpow_le_zpow_right₀ (by norm_num : (1 : ℚ) ≤ 10) hk).trans
      (Binary.decimalExponent_spec h).1
    rw [Nat.cast_one, add_comm] at hlt
    refine hnot ⟨1, k + 1⟩ le_rfl ?_
    rw [value_one]
    exact hstands.between b.standsFor_value hlt.le hle
  obtain ⟨l, hl⟩ := Nat.exists_eq_add_of_lt (not_le.1 hlong)
  replace hl : (mk d k).length = l + 2 := by omega
  have hfirst : (10 : ℚ) ^ (l + 1 + k) ≤ (mk d k).value := by
    rw [value, zpow_add₀ (by norm_num), ← Nat.cast_succ, zpow_natCast]
    exact mul_le_mul_of_nonneg_right
      (by exact_mod_cast (Binary.pow_le_of_length_toDigits (digits_pos h hstands) hl).1)
      (by positivity)
  refine ⟨hmod, l, hl, fun y hy => ⟨?_, ?_⟩⟩
  · by_contra hlt
    exact hnot y (by omega) hy
  · by_contra hlt
    refine hnot ⟨1, l + 1 + k⟩ (by show k + 1 ≤ l + 1 + k; omega) ?_
    rw [value_one]
    exact hy.between hstands (not_le.1 hlt).le hfirst

theorem add_exponent_gt {y : Decimal} {l : ℕ} {k : ℤ} (h : (10 : ℚ) ^ k ≤ y.value)
    (hl : 0 < l) (hlength : y.length ≤ l) : k < l + y.exponent := by
  by_contra hle
  have hlt := value_lt ((y.length_le_iff hl).1 hlength)
  linarith [zpow_le_zpow_right₀ (by norm_num : (1 : ℚ) ≤ 10) (not_lt.1 hle)]

/-- What is printed stands for the number, no decimal that does has fewer digits, and of those with
as many none is nearer to it. -/
theorem shortest_spec {b : Binary} (h : b.IsDouble) :
    b.StandsFor (shortest b).value ∧ ∀ y : Decimal, b.StandsFor y.value →
      (shortest b).length ≤ y.length ∧
      (y.length = (shortest b).length → |(shortest b).value - b.value| ≤ |y.value - b.value|) := by
  obtain ⟨n, d, hn, hd, hbefore, hshortest⟩ := exists_shortest_eq h
  have hstands := standsFor_of_onGrid? h.pos hd
  rw [hshortest, value_withoutZeros]
  refine ⟨hstands, fun y hy => ?_⟩
  cases n with
  | zero =>
    rw [Nat.cast_zero, sub_zero] at *
    rw [length_withoutZeros_eq_one h hd]
    exact ⟨length_pos y, nearest_of_coarsest h hd hy⟩
  | succ n =>
    have hcoarser := hbefore n n.lt_succ_self
    rw [show b.decimalExponent - n = b.decimalExponent - (n + 1 : ℕ) + 1 by push_cast; ring]
      at hcoarser
    obtain ⟨hmod, l, hl, hall⟩ := of_coarser_eq_none h (by push_cast; omega) hd hcoarser
    rw [withoutZeros_of_mod_ne_zero hmod, hl]
    obtain ⟨hexponent, hfirst⟩ := hall y hy
    refine ⟨?_, fun hlength => ?_⟩
    · by_contra hlt
      have := add_exponent_gt hfirst l.succ_pos (by omega)
      omega
    · have := add_exponent_gt hfirst (l + 1).succ_pos hlength.le
      have hgrid : b.decimalExponent - (n + 1 : ℕ) = y.exponent := by omega
      rw [hgrid] at hd ⊢
      exact Binary.onGrid?_nearest h.pos hd hy

end Decimal

end FieldSponge
