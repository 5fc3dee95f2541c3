import FieldSponge.Proofs.TextRoundTrips
import Mathlib

/-! Signed numerals. An element is written as the integer of least magnitude among those of its
residue. The prime is odd, so no two integers share the least magnitude except as opposites of
opposite elements: negation changes the sign in front and nothing else. The library is imported
whole, since no part of it has `Int.toInt?_repr`. -/
namespace FieldSponge

namespace Numeral

theorem toList_minus_append (s : String) : ("-" ++ s).toList = '-' :: s.toList := by
  simp

theorem head?_repr_ne_minus (n : ℕ) : n.repr.toList.head? ≠ some '-' := by
  intro h
  rw [Nat.repr_eq_ofList_toDigits, String.toList_ofList] at h
  have hdigit := (Radix.decimal.isNumeral_toDigits n).digit '-' (List.mem_of_mem_head? h)
  exact absurd hdigit (by decide)

/-- Only the numeral of a negative integer has a sign in front. -/
theorem head?_repr_eq_minus_iff (z : ℤ) : z.repr.toList.head? = some '-' ↔ z < 0 := by
  rw [Int.repr_eq_if]
  split
  · rename_i h
    exact iff_of_false (head?_repr_ne_minus z.toNat) (not_lt.2 h)
  · rename_i h
    rw [toList_minus_append, List.head?_cons]
    exact iff_of_true rfl (not_le.1 h)

theorem repr_neg_of_pos {z : ℤ} (h : 0 < z) : (-z).repr = "-" ++ z.repr := by
  have hneg : ¬ 0 ≤ -z := by omega
  rw [Int.repr_eq_if, if_neg hneg, neg_neg, Int.repr_eq_if, if_pos h.le]

theorem repr_ne_minus_zero (z : ℤ) : z.repr ≠ "-0" := by
  intro h
  have hread : z.repr.toInt? = some 0 := by
    rw [h, show "-0" = "-" ++ (0 : ℕ).repr from rfl, String.toInt?_minus_append, Nat.toNat?_repr]
    rfl
  have hz : z = 0 := Option.some.inj ((Int.toInt?_repr z).symm.trans hread)
  rw [hz] at h
  exact absurd h (by decide)

end Numeral

namespace Felt

open Numeral

theorem toList_toSigned_eq (a : Felt) : a.toSigned.toList =
    if a.toNat ≤ (prime - 1) / 2 then Nat.toDigits 10 a.toNat
    else '-' :: Nat.toDigits 10 (prime - a.toNat) := by
  have hhalf : half < a.toUInt256 ↔ ¬ a.toNat ≤ (prime - 1) / 2 := by
    rw [UInt256.lt_iff_toNat_lt, toNat_half, toNat_toUInt256, not_le]
  rw [toList_toSigned]
  by_cases h : a.toNat ≤ (prime - 1) / 2
  · rw [if_pos h, if_neg fun g => hhalf.1 g h]
  · rw [if_neg h, if_pos (hhalf.2 h)]

/-- The integer of least magnitude in the residue of an element. -/
theorem valMinAbs_toZMod (a : Felt) : a.toZMod.valMinAbs =
    if a.toNat ≤ (prime - 1) / 2 then (a.toNat : ℤ) else a.toNat - prime := by
  rw [ZMod.valMinAbs_def_pos, val_toZMod]
  rfl

theorem valMinAbs_toZMod_neg (a : Felt) : (-a).toZMod.valMinAbs = -a.toZMod.valMinAbs := by
  -- The prime is odd, so no residue is its own opposite.
  have hodd : 2 * a.toZMod.val ≠ prime := fun h => by
    have hmod := congrArg (· % 2) h
    simp only [Nat.mul_mod_right, prime] at hmod
    omega
  rw [toZMod_neg, ZMod.valMinAbs_neg_of_ne_half hodd]

theorem valMinAbs_toZMod_ne_zero {a : Felt} (ha : a ≠ 0) : a.toZMod.valMinAbs ≠ 0 :=
  mt (ZMod.valMinAbs_eq_zero _).1 (mt toZMod_eq_zero_iff.1 ha)

theorem toSigned_eq_repr (a : Felt) : a.toSigned = a.toZMod.valMinAbs.repr := by
  have ha := a.toNat_lt
  apply String.toList_injective
  rw [toList_toSigned_eq, valMinAbs_toZMod, Int.repr_eq_if]
  by_cases h : a.toNat ≤ (prime - 1) / 2
  · rw [if_pos h, if_pos h, if_pos (Int.natCast_nonneg _), Int.toNat_natCast,
      Nat.repr_eq_ofList_toDigits, String.toList_ofList]
  · have hneg : ¬ 0 ≤ (a.toNat : ℤ) - prime := by omega
    have hmagnitude : (-((a.toNat : ℤ) - prime)).toNat = prime - a.toNat := by omega
    rw [if_neg h, if_neg h, if_neg hneg, hmagnitude, toList_minus_append,
      Nat.repr_eq_ofList_toDigits, String.toList_ofList]

theorem toInt?_toSigned (a : Felt) : a.toSigned.toInt? = some a.toZMod.valMinAbs := by
  rw [toSigned_eq_repr, Int.toInt?_repr]

theorem modEq_of_toZMod_eq {a : Felt} {z : ℤ} (h : a.toZMod = z) :
    a.toZMod.valMinAbs ≡ z [ZMOD prime] := by
  rw [← ZMod.intCast_eq_intCast_iff, ZMod.coe_valMinAbs, h]

theorem head?_toSigned_iff (a : Felt) :
    a.toSigned.toList.head? = some '-' ↔ (prime - 1) / 2 < a.toNat := by
  have ha := a.toNat_lt
  rw [toSigned_eq_repr, head?_repr_eq_minus_iff, valMinAbs_toZMod]
  split <;> omega

theorem toSigned_neg_cases {a : Felt} (ha : a ≠ 0) :
    a.toSigned = "-" ++ (-a).toSigned ∨ (-a).toSigned = "-" ++ a.toSigned := by
  rw [toSigned_eq_repr, toSigned_eq_repr, valMinAbs_toZMod_neg]
  rcases lt_or_gt_of_ne (valMinAbs_toZMod_ne_zero ha) with hneg | hpos
  · left
    rw [← repr_neg_of_pos (Int.neg_pos.2 hneg), neg_neg]
  · exact .inr (repr_neg_of_pos hpos)

theorem head?_toSigned_neg_iff {a : Felt} (ha : a ≠ 0) :
    (-a).toSigned.toList.head? = some '-' ↔ ¬ a.toSigned.toList.head? = some '-' := by
  have hz := valMinAbs_toZMod_ne_zero ha
  rw [toSigned_eq_repr, toSigned_eq_repr, valMinAbs_toZMod_neg, head?_repr_eq_minus_iff,
    head?_repr_eq_minus_iff]
  omega

/-- An element is written as its canonical value up to half of the prime, and above as a minus sign
and what the prime exceeds it by. What is written is the integer of least magnitude in the residue,
so opposite elements are written alike but for the sign, which zero has not, and the integers that
are written are added, subtracted and multiplied modulo the prime as the elements are. -/
theorem toSigned_symmetric :
    (∀ a : Felt,
      a.toSigned.toList = (if a.toNat ≤ (prime - 1) / 2 then Nat.toDigits 10 a.toNat
        else '-' :: Nat.toDigits 10 (prime - a.toNat)) ∧
      (∃ z : ℤ, a.toSigned.toInt? = some z ∧ z.natAbs = min a.toNat (prime - a.toNat) ∧
        z.natAbs ≤ (prime - 1) / 2 ∧ z ≡ a.toNat [ZMOD prime]) ∧
      (a ≤ signedMax ↔ ¬ a.toSigned.toList.head? = some '-') ∧
      a.toSigned ≠ "-0" ∧
      (a ≠ 0 →
        ((-a).toSigned.toList.head? = some '-' ↔ ¬ a.toSigned.toList.head? = some '-') ∧
        (a.toSigned = "-" ++ (-a).toSigned ∨ (-a).toSigned = "-" ++ a.toSigned))) ∧
    ∀ (a b : Felt) (x y : ℤ), a.toSigned.toInt? = some x → b.toSigned.toInt? = some y →
      ∃ s d m : ℤ, (a + b).toSigned.toInt? = some s ∧ (a - b).toSigned.toInt? = some d ∧
        (a * b).toSigned.toInt? = some m ∧ s ≡ x + y [ZMOD prime] ∧ d ≡ x - y [ZMOD prime] ∧
        m ≡ x * y [ZMOD prime] := by
  refine ⟨fun a => ⟨toList_toSigned_eq a, ⟨_, toInt?_toSigned a, ?_, ?_, ?_⟩, ?_, ?_,
    fun ha => ⟨head?_toSigned_neg_iff ha, toSigned_neg_cases ha⟩⟩, fun a b x y hx hy => ?_⟩
  · rw [ZMod.valMinAbs_natAbs_eq_min, val_toZMod]
  · exact ZMod.natAbs_valMinAbs_le a.toZMod
  · exact modEq_of_toZMod_eq (Int.cast_natCast _).symm
  · rw [head?_toSigned_iff, not_lt]
    change a.toNat ≤ signedMax.toNat ↔ _
    rw [signedMax, toNat_ofUInt256, toNat_half, Nat.mod_eq_of_lt (by decide)]
  · rw [toSigned_eq_repr]
    exact repr_ne_minus_zero _
  · rw [toInt?_toSigned, Option.some_inj] at hx hy
    subst hx hy
    refine ⟨_, _, _, toInt?_toSigned _, toInt?_toSigned _, toInt?_toSigned _,
      modEq_of_toZMod_eq ?_, modEq_of_toZMod_eq ?_, modEq_of_toZMod_eq ?_⟩
    · rw [toZMod_add, Int.cast_add, ZMod.coe_valMinAbs, ZMod.coe_valMinAbs]
    · rw [toZMod_sub, Int.cast_sub, ZMod.coe_valMinAbs, ZMod.coe_valMinAbs]
    · rw [toZMod_mul, Int.cast_mul, ZMod.coe_valMinAbs, ZMod.coe_valMinAbs]

end Felt

end FieldSponge
