import FieldSponge.UInt256.Carry
import FieldSponge.UInt256.Shift

/-! Binary long division. The bits of the dividend are brought down from the highest one; quotient
and remainder are always those of the bits brought down so far. -/
namespace FieldSponge
namespace UInt256

/-- The quotient and the remainder of the bits of the dividend that have been brought down. -/
structure LongDivision where
  quotient : UInt256
  remainder : UInt256
deriving DecidableEq, Repr

namespace LongDivision

/-- Brings down bit `i` of `n`. The bit that leaves the remainder at the top counts in the
comparison with `d`, so divisors of all 256 bits are safe. -/
def step (n d : UInt256) (s : LongDivision) (i : Nat) : LongDivision :=
  let carried := s.remainder.bit 255
  let doubled := s.remainder <<< 1
  let remainder := if n.bit i then doubled ||| 1 else doubled
  if carried || d ≤ remainder then
    ⟨s.quotient ||| ((1 : UInt256) <<< i), (remainder.subBorrow d).1⟩
  else
    ⟨s.quotient, remainder⟩

def run (n d : UInt256) : Nat → LongDivision → LongDivision
  | 0, s => s
  | i + 1, s => run n d i (step n d s i)

/-- What holds once the bits of `n` from `i` on have been brought down. -/
structure Holds (n d : UInt256) (i : Nat) (s : LongDivision) : Prop where
  quotient : s.quotient.toNat = ((n.toNat >>> i) / d.toNat) <<< i
  remainder : s.remainder.toNat = (n.toNat >>> i) % d.toNat

theorem shiftRight_eq_two_mul (n i : Nat) :
    n >>> i = 2 * (n >>> (i + 1)) + (n.testBit i).toNat := by
  rw [Nat.shiftRight_succ, Nat.testBit_eq_decide_div_mod_eq, ← Nat.shiftRight_eq_div_pow]
  rcases Nat.mod_two_eq_zero_or_one (n >>> i) with h | h <;> simp [h] <;> omega

theorem toNat_bringDown (r : UInt256) (b : Bool) :
    (if b then (r <<< 1) ||| 1 else r <<< 1).toNat = (2 * r.toNat + b.toNat) % size := by
  have hr : (r <<< 1).toNat = 2 * (r.toNat % (size / 2)) := by
    rw [toNat_shiftLeft, Nat.shiftLeft_eq]
    simp only [size]
    omega
  cases b with
  | false =>
    simp only [Bool.false_eq_true, if_false, Bool.toNat_false, hr, size]
    omega
  | true =>
    have ho : 2 * (r.toNat % (size / 2)) ||| 1 = 2 * (r.toNat % (size / 2)) + 1 := by
      have h := Nat.shiftLeft_add_eq_or_of_lt (show 1 < 2 ^ 1 by decide) (r.toNat % (size / 2))
      rw [Nat.shiftLeft_eq] at h
      rw [Nat.mul_comm, ← h, Nat.mul_comm]
    simp only [if_true, Bool.toNat_true, toNat_or, toNat_one, hr, ho, size]
    omega

theorem toNat_setBit {q : UInt256} {k i : Nat} (hq : q.toNat = k <<< (i + 1)) (hi : i < 256) :
    (q ||| ((1 : UInt256) <<< i)).toNat = (2 * k + 1) <<< i := by
  have h₁ : 1 <<< i < 2 ^ (i + 1) := by
    rw [Nat.one_shiftLeft, Nat.pow_succ]
    have := Nat.two_pow_pos i
    omega
  have h₂ : 1 <<< i < size := by
    rw [Nat.one_shiftLeft]
    exact Nat.pow_lt_pow_right (a := 2) (by decide) hi
  rw [toNat_or, toNat_shiftLeft, toNat_one, hq, Nat.mod_eq_of_lt h₂,
    ← Nat.shiftLeft_add_eq_or_of_lt h₁, Nat.one_shiftLeft, Nat.shiftLeft_eq, Nat.shiftLeft_eq,
    Nat.pow_succ]
  grind

/-- The divisor is subtracted when it is at most the doubled remainder with the bit below it, also
when that number has 257 bits. -/
theorem le_bringDown_iff (r d : UInt256) (b : Bool) :
    (r.bit 255 || decide (d ≤ if b then (r <<< 1) ||| 1 else r <<< 1)) = true ↔
      d.toNat ≤ 2 * r.toNat + b.toNat := by
  have hr := r.toNat_lt
  have hd := d.toNat_lt
  have hb : b.toNat ≤ 1 := Bool.toNat_le b
  have htop : r.bit 255 = decide (size ≤ 2 * r.toNat) := by
    rw [← testBit_toNat, Nat.testBit_eq_decide_div_mod_eq, decide_eq_decide]
    simp only [size] at *
    omega
  rw [htop, Bool.or_eq_true, decide_eq_true_iff, decide_eq_true_iff, le_iff_toNat_le,
    toNat_bringDown]
  simp only [size] at *
  omega

theorem quotient_step (n d : UInt256) (s : LongDivision) (i : Nat) :
    (step n d s i).quotient = if d.toNat ≤ 2 * s.remainder.toNat + (n.bit i).toNat then
      s.quotient ||| ((1 : UInt256) <<< i) else s.quotient := by
  simp only [step, le_bringDown_iff]
  split <;> rfl

theorem toNat_remainder_step (n : UInt256) {d : UInt256} {s : LongDivision} (i : Nat)
    (h : s.remainder < d) : (step n d s i).remainder.toNat =
      (2 * s.remainder.toNat + (n.bit i).toNat) % d.toNat := by
  have hbit : (n.bit i).toNat ≤ 1 := Bool.toNat_le _
  have hd := d.toNat_lt
  have hx := toNat_bringDown s.remainder (n.bit i)
  rw [lt_iff_toNat_lt] at h
  simp only [step, le_bringDown_iff]
  generalize (if n.bit i then (s.remainder <<< 1) ||| 1 else s.remainder <<< 1) = x at *
  split
  · rename_i hge
    have hs := toNat_subBorrow x d
    have hsl := (x.subBorrow d).1.toNat_lt
    have hmod : (2 * s.remainder.toNat + (n.bit i).toNat) % d.toNat =
        2 * s.remainder.toNat + (n.bit i).toNat - d.toNat := by
      rw [Nat.mod_eq_sub_mod hge, Nat.mod_eq_of_lt (by omega)]
    rw [hmod]
    cases hc : (x.subBorrow d).2 <;> rw [hc] at hs <;>
      simp only [Bool.toNat_true, Bool.toNat_false, size] at * <;> omega
  · rename_i hlt
    simp only
    rw [hx, Nat.mod_eq_of_lt (by omega), Nat.mod_eq_of_lt (by omega)]

-- The doubled remainder is `2 ^ 256` here, one more than the divisor.
example : step 0 max ⟨0, ⟨0, 0, 0, 0x8000000000000000⟩⟩ 0 = ⟨1, 1⟩ := by decide

theorem holds_step {n d : UInt256} {i : Nat} {s : LongDivision} (hd : d.toNat ≠ 0) (hi : i < 256)
    (h : Holds n d (i + 1) s) : Holds n d i (step n d s i) := by
  have hpos : 0 < d.toNat := Nat.pos_of_ne_zero hd
  have hlt : s.remainder < d := by
    rw [lt_iff_toNat_lt, h.remainder]
    exact Nat.mod_lt _ hpos
  have hq := quotient_step n d s i
  have hr := toNat_remainder_step n i hlt
  have hbit : (n.bit i).toNat ≤ 1 := Bool.toNat_le _
  have hdiv := Nat.div_add_mod (n.toNat >>> (i + 1)) d.toNat
  have hn := shiftRight_eq_two_mul n.toNat i
  rw [testBit_toNat] at hn
  rw [← h.remainder] at hdiv
  rw [lt_iff_toNat_lt] at hlt
  -- The bits brought down so far are a multiple of the divisor and the number that is divided.
  have hsplit : n.toNat >>> i = (2 * s.remainder.toNat + (n.bit i).toNat) +
      d.toNat * (2 * (n.toNat >>> (i + 1) / d.toNat)) := by
    rw [Nat.mul_left_comm]
    omega
  refine ⟨?_, by rw [hr, hsplit, Nat.add_mul_mod_self_left]⟩
  rw [hq, hsplit, Nat.add_mul_div_left _ _ hpos]
  split
  · rename_i hge
    rw [Nat.div_eq_sub_div hpos hge, Nat.div_eq_of_lt (by omega), Nat.zero_add, Nat.add_comm]
    exact toNat_setBit h.quotient hi
  · rw [Nat.div_eq_of_lt (by omega), Nat.zero_add, h.quotient, Nat.shiftLeft_succ_inside,
      Nat.shiftLeft_eq]

theorem holds_run {n d : UInt256} (hd : d.toNat ≠ 0) {i : Nat} (hi : i ≤ 256) {s : LongDivision}
    (h : Holds n d i s) : Holds n d 0 (run n d i s) := by
  induction i generalizing s with
  | zero => exact h
  | succ i ih => exact ih (by omega) (holds_step hd (by omega) h)

theorem holds_start (n d : UInt256) : Holds n d n.bitLength ⟨0, 0⟩ := by
  have h : n.toNat >>> n.bitLength = 0 := by
    rw [bitLength_eq]
    split
    · rename_i hz
      rw [hz, Nat.zero_shiftRight]
    · rw [Nat.shiftRight_eq_div_pow, Nat.div_eq_of_lt Nat.lt_log2_self]
  exact ⟨by rw [h]; simp, by rw [h]; simp⟩

end LongDivision

end UInt256

end FieldSponge
