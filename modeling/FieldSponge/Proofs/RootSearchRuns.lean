import FieldSponge.Proofs.SquareRoots

/-! Runs of the square-root search. The search is taken step by step, without a bound on either loop
and with the subtraction in it checked. In every run for a square the order of the unity is that of
the state, and the order of the defect is a smaller power of two, so that the inner loop ends before
the subtraction leaves the natural numbers and each pass of the outer loop lowers the order. -/
namespace FieldSponge
namespace Felt
namespace RootSearch

inductive Stage where
  /-- In front of the test of the outer loop. -/
  | outer (passes : ℕ) (s : RootSearch)
  /-- In front of the test of the inner loop, with the defect squared `count` times. -/
  | inner (passes : ℕ) (s : RootSearch) (power : Felt) (count : ℕ)
  | found (passes : ℕ) (root : Felt)
  /-- The count of squarings of the unity is a negative number. -/
  | underflow

namespace Stage

def step : Stage → Stage
  | outer passes s =>
    if s.defect.isOne then found passes s.root else inner (passes + 1) s s.defect.square 1
  | inner passes s power count =>
    if power.isOne then
      if s.order < count + 1 then underflow else outer passes (s.improve count)
    else inner passes s power.square (count + 1)
  | found passes root => found passes root
  | underflow => underflow

def passes : Stage → ℕ
  | outer passes _ | inner passes _ _ _ | found passes _ => passes
  | underflow => 0

/-- What every step keeps, for the element sought. -/
def Keeps (a : Felt) : Stage → Prop
  | outer passes s => s.Holds a ∧ s.order + passes ≤ twoAdicity
  | inner passes s power count =>
    s.Holds a ∧ s.order + passes ≤ twoAdicity + 1 ∧ 1 ≤ count ∧
      power.toZMod = s.defect.toZMod ^ 2 ^ count ∧ s.defect.toZMod ^ 2 ^ (count - 1) ≠ 1
  | found passes root => passes < twoAdicity ∧ root * root = a
  | underflow => False

end Stage

open Stage

theorem sq_toZMod_two_pow (x : Felt) (n : ℕ) :
    (x.toZMod ^ 2 ^ n) ^ 2 = x.toZMod ^ 2 ^ (n + 1) := by
  rw [← pow_mul, ← pow_succ]

theorem Holds.lt_order {a : Felt} {s : RootSearch} (h : s.Holds a) {n : ℕ}
    (hn : s.defect.toZMod ^ 2 ^ n ≠ 1) : n + 1 < s.order := by
  by_contra hle
  refine hn (orderOf_dvd_iff_pow_eq_one.1 ?_)
  exact (orderOf_dvd_of_pow_eq_one h.defect).trans (pow_dvd_pow 2 (by omega))

theorem Holds.orderOf_unity {a : Felt} {s : RootSearch} (h : s.Holds a) :
    orderOf s.unity.toZMod = 2 ^ s.order := by
  rw [orderOf_of_pow_eq_neg_one h.unity, Nat.sub_add_cancel h.order_pos]

theorem keeps_step {a : Felt} {p : Stage} (h : p.Keeps a) : p.step.Keeps a := by
  cases p with
  | outer passes s =>
    obtain ⟨hs, hpasses⟩ := h
    have hpos := hs.order_pos
    rw [step]
    split
    · rename_i hone
      rw [isOne_iff] at hone
      refine ⟨by omega, toZMod_inj.1 ?_⟩
      rw [toZMod_mul, ← sq, hs.root, hone, toZMod_one, mul_one]
    · rename_i hone
      rw [isOne_iff, ← toZMod_eq_one_iff] at hone
      refine ⟨hs, by omega, le_rfl, by rw [toZMod_square, pow_one], ?_⟩
      simpa using hone
  | inner passes s power count =>
    obtain ⟨hs, hpasses, hcount, hpower, hbefore⟩ := h
    -- One squaring less did not give one, so the count is still below the exponent of the order.
    have hlt : count < s.order := by
      have := hs.lt_order hbefore
      omega
    rw [step]
    split
    · rename_i hone
      rw [isOne_iff, ← toZMod_eq_one_iff, hpower] at hone
      have hneg : s.defect.toZMod ^ 2 ^ (count - 1) = -1 := by
        refine eq_neg_one_of_sq_eq_one ?_ hbefore
        rw [sq_toZMod_two_pow, Nat.sub_add_cancel hcount, hone]
      rw [if_neg (by omega)]
      refine ⟨hs.improve hcount hlt hneg, ?_⟩
      change count + passes ≤ twoAdicity
      omega
    · rename_i hone
      rw [isOne_iff, ← toZMod_eq_one_iff, hpower] at hone
      refine ⟨hs, hpasses, by omega, ?_, hone⟩
      rw [toZMod_square, hpower, sq_toZMod_two_pow]
  | found passes root => exact h
  | underflow => exact h

theorem keeps_iterate {a : Felt} {p : Stage} (h : p.Keeps a) (n : ℕ) : (step^[n] p).Keeps a := by
  induction n with
  | zero => exact h
  | succ n ih =>
    rw [Function.iterate_succ_apply']
    exact keeps_step ih

theorem Stage.Keeps.passes_lt {a : Felt} {p : Stage} (h : p.Keeps a) : p.passes < twoAdicity := by
  cases p with
  | outer passes s =>
    have hpos := h.1.order_pos
    have hpasses := h.2
    change passes < twoAdicity
    omega
  | inner passes s power count =>
    have hlt := h.1.lt_order h.2.2.2.2
    have hpasses := h.2.1
    change passes < twoAdicity
    omega
  | found passes root => exact h.1
  | underflow => exact h.elim

/-- The inner loop squares the defect as long as its power is not one. -/
theorem iterate_inner {s : RootSearch} {i : ℕ} (hbefore : ∀ j < i, s.defect.toZMod ^ 2 ^ j ≠ 1)
    (passes : ℕ) {j : ℕ} (hj : j < i) :
    ∃ power, step^[j] (inner passes s s.defect.square 1) = inner passes s power (j + 1) ∧
      power.toZMod = s.defect.toZMod ^ 2 ^ (j + 1) := by
  induction j with
  | zero => exact ⟨s.defect.square, rfl, by rw [toZMod_square, zero_add, pow_one]⟩
  | succ j ih =>
    obtain ⟨power, hrun, hpower⟩ := ih (by omega)
    have hone : ¬ power.isOne = true := by
      rw [isOne_iff, ← toZMod_eq_one_iff, hpower]
      exact hbefore (j + 1) hj
    refine ⟨power.square, ?_, by rw [toZMod_square, hpower, sq_toZMod_two_pow]⟩
    rw [Function.iterate_succ_apply', hrun, step, if_neg hone]

/-- A pass of the outer loop: the inner loop ends at the exponent of the order of the defect, and
the candidate is improved. -/
theorem Holds.exists_pass {a : Felt} {s : RootSearch} (h : s.Holds a) (h1 : s.defect ≠ 1)
    (passes : ℕ) : ∃ i, s.defectOrder? = some i ∧ 1 ≤ i ∧ i < s.order ∧
      orderOf s.defect.toZMod = 2 ^ i ∧ (s.improve i).Holds a ∧
      step^[i] (outer passes s) = inner (passes + 1) s 1 i ∧
      step^[i + 1] (outer passes s) = outer (passes + 1) (s.improve i) := by
  obtain ⟨i, hsome, hi, hlt, hneg⟩ := h.exists_defectOrder? h1
  have himprove := h.improve hi hlt hneg
  have horder : orderOf s.defect.toZMod = 2 ^ i := by
    rw [orderOf_of_pow_eq_neg_one hneg, Nat.sub_add_cancel hi]
  have hbefore : ∀ j < i, s.defect.toZMod ^ 2 ^ j ≠ 1 := fun j hj hone => by
    have hdvd := orderOf_dvd_of_pow_eq_one hone
    rw [horder, Nat.pow_dvd_pow_iff_le_right (by decide)] at hdvd
    omega
  have henter : step (outer passes s) = inner (passes + 1) s s.defect.square 1 :=
    if_neg (mt isOne_iff.1 h1)
  -- One step enters the inner loop, and each of the others squares.
  obtain ⟨k, rfl⟩ := Nat.exists_eq_add_of_le' hi
  obtain ⟨power, hrun, hpower⟩ := iterate_inner hbefore (passes + 1) k.lt_succ_self
  have hone : power = 1 := by
    rw [← toZMod_eq_one_iff, hpower, ← horder, pow_orderOf_eq_one]
  have hend : step^[k + 1] (outer passes s) = inner (passes + 1) s 1 (k + 1) := by
    rw [Function.iterate_succ_apply, henter, hrun, hone]
  refine ⟨k + 1, hsome, hi, hlt, horder, himprove, hend, ?_⟩
  rw [Function.iterate_succ_apply', hend, step, if_pos (isOne_iff.2 rfl), if_neg (by omega)]

theorem Holds.exists_iterate_found {a : Felt} {s : RootSearch} (h : s.Holds a) (passes : ℕ) :
    ∃ n total r, step^[n] (outer passes s) = found total r ∧ s.finish? = some r := by
  induction s using finish?.induct generalizing passes with
  | case1 s hone =>
    refine ⟨1, passes, s.root, if_pos hone, ?_⟩
    rw [finish?_eq, if_pos hone]
  | case2 s hone hnone =>
    obtain ⟨i, hsome, -⟩ := h.exists_defectOrder? (mt isOne_iff.2 hone)
    rw [hnone] at hsome
    cases hsome
  | case3 s hone i hi hlt ih =>
    obtain ⟨j, hj, -, -, -, himprove, -, hpass⟩ := h.exists_pass (mt isOne_iff.2 hone) passes
    obtain rfl : j = i := Option.some.inj (hj.symm.trans hi)
    obtain ⟨n, total, r, hrun, hr⟩ := ih himprove (passes + 1)
    refine ⟨n + (j + 1), total, r, ?_, ?_⟩
    · rw [Function.iterate_add_apply, hpass, hrun]
    · rw [finish?_eq, if_neg hone, hj, Option.bind_some, hr]

/-- For every square other than zero, whenever the outer loop starts with a defect other than one,
the unity has the order that the state says, the order of the defect divides half of it, and the
root has the square of the element times the defect. The inner loop then ends at the exponent of the
order of the defect, which is positive and below that of the unity and becomes it in the next pass.
So the subtraction never leaves the natural numbers, there are at most 191 passes, and the run ends
with the root that the search answers. -/
theorem loops_stop {a : Felt} (h0 : a ≠ 0) (hsq : ∃ y : Felt, y * y = a) :
    (∀ (n passes : ℕ) (s : RootSearch),
      step^[n] (outer 0 (start a)) = outer passes s → s.defect ≠ 1 →
        orderOf s.unity.toZMod = 2 ^ s.order ∧
        orderOf s.defect.toZMod ∣ 2 ^ (s.order - 1) ∧
        s.root * s.root = a * s.defect ∧
        ∃ i, s.defectOrder? = some i ∧ 1 ≤ i ∧ i < s.order ∧
          orderOf s.defect.toZMod = 2 ^ i ∧
          step^[n + i] (outer 0 (start a)) = inner (passes + 1) s 1 i ∧
          step^[n + i + 1] (outer 0 (start a)) = outer (passes + 1) (s.improve i) ∧
          (s.improve i).order = i) ∧
    (∀ n, step^[n] (outer 0 (start a)) ≠ underflow ∧
      (step^[n] (outer 0 (start a))).passes ≤ 191) ∧
    ∃ n total r, step^[n] (outer 0 (start a)) = found total r ∧
      a.sqrt? = some (min r (-r)) := by
  have hstart := holds_start (isOne_pow_half h0 hsq)
  have hkeeps := fun n => keeps_iterate (p := outer 0 (start a)) ⟨hstart, le_rfl⟩ n
  refine ⟨fun n passes s hrun h1 => ?_, fun n => ⟨fun hrun => ?_, ?_⟩, ?_⟩
  · have hn := hkeeps n
    rw [hrun] at hn
    have hs : s.Holds a := hn.1
    obtain ⟨i, hsome, hi, hlt, horder, -, hend, hpass⟩ := hs.exists_pass h1 passes
    refine ⟨hs.orderOf_unity, orderOf_dvd_of_pow_eq_one hs.defect, toZMod_inj.1 ?_, i, hsome, hi,
      hlt, horder, ?_, ?_, rfl⟩
    · rw [toZMod_mul, toZMod_mul, ← sq, hs.root]
    · rw [Nat.add_comm, Function.iterate_add_apply, hrun, hend]
    · rw [Nat.add_assoc, Nat.add_comm, Function.iterate_add_apply, hrun, hpass]
  · have hn := hkeeps n
    rw [hrun] at hn
    exact hn
  · exact Nat.le_of_lt_succ (hkeeps n).passes_lt
  · obtain ⟨n, total, r, hrun, hr⟩ := hstart.exists_iterate_found 0
    refine ⟨n, total, r, hrun, ?_⟩
    rw [sqrt?, if_neg (mt isZero_iff.1 h0), if_pos (isSquare_iff.2 hsq), hr, Option.map_some]

theorem start_nine_defect_ne_one : (start (ofWord 9)).defect ≠ 1 := by
  have hpow : (9 : ZMod 0x800000000000011000000000000000000000000000000000000000000000001)
      ^ 0x0800000000000011 ≠ 1 := by
    reduce_mod_char
    decide
  have hnine : (ofWord 9).toZMod = 9 := toZMod_ofWord 9
  change ofWord 9 ^ oddPart ≠ 1
  rw [ne_eq, ← toZMod_eq_one_iff, toZMod_pow, hnine]
  exact hpow

/-- Nine is a square, and its search goes through the outer loop. -/
theorem loops_stop_nine :
    ofWord 9 ≠ 0 ∧ (∃ y : Felt, y * y = ofWord 9) ∧ (start (ofWord 9)).defect ≠ 1 ∧
      (∃ i, 1 ≤ i ∧ i < twoAdicity ∧ orderOf (start (ofWord 9)).defect.toZMod = 2 ^ i ∧
        step^[i + 1] (outer 0 (start (ofWord 9))) = outer 1 ((start (ofWord 9)).improve i)) ∧
      ∃ n total r, step^[n] (outer 0 (start (ofWord 9))) = found total r ∧
        (ofWord 9).sqrt? = some (min r (-r)) := by
  have h0 : ofWord 9 ≠ 0 := fun h => by
    have hnat := congrArg toNat h
    rw [toNat_ofWord, toNat_zero] at hnat
    exact absurd hnat (by decide)
  have hsq : ofWord 3 * ofWord 3 = ofWord 9 := by
    rw [← toNat_inj, toNat_mul, toNat_ofWord, toNat_ofWord]
    rfl
  obtain ⟨hpass, -, hfound⟩ := loops_stop h0 ⟨_, hsq⟩
  obtain ⟨-, -, -, i, -, hi, hlt, horder, -, hrun, -⟩ :=
    hpass 0 0 _ rfl start_nine_defect_ne_one
  rw [Nat.zero_add] at hrun
  exact ⟨h0, ⟨_, hsq⟩, start_nine_defect_ne_one, ⟨i, hi, hlt, horder, hrun⟩, hfound⟩

end RootSearch

end Felt

end FieldSponge
