import FieldSponge.Montgomery.Basic
import FieldSponge.Proofs.BinaryOperations
import Mathlib.Tactic.NormNum

/-! Carry and borrow chains. A chain goes over the words of two integers from the lowest one up, and
each word is worked out in 128 bits: the high half of a sum is its carry, and the top bit of a
difference that wraps is its borrow. The sum and the difference that come out are those of the
integers, each takes back the other, and with one correction by the prime they are those of
residues. -/
namespace FieldSponge

namespace DoubleWord

def ofNat? (n : ℕ) : Option DoubleWord :=
  if n < 2 ^ 128 then some ⟨UInt64.ofNat n, UInt64.ofNat (n / 2 ^ 64)⟩ else none

theorem ofNat?_toNat (d : DoubleWord) : ofNat? d.toNat = some d := by
  have hlow := d.low.toNat_lt
  have hhigh := d.high.toNat_lt
  have hd : d.toNat = d.low.toNat + 2 ^ 64 * d.high.toNat := rfl
  have elow : UInt64.ofNat d.toNat = d.low := by
    rw [← UInt64.toNat_inj, UInt64.toNat_ofNat']
    omega
  have ehigh : UInt64.ofNat (d.toNat / 2 ^ 64) = d.high := by
    rw [← UInt64.toNat_inj, UInt64.toNat_ofNat']
    omega
  rw [ofNat?, if_pos (by omega), elow, ehigh]

end DoubleWord

namespace Word

def sum? (a b c : UInt64) : Option DoubleWord :=
  DoubleWord.ofNat? (a.toNat + b.toNat + c.toNat)

theorem sum?_eq (a b c : UInt64) : sum? a b c = some (addCarry a b c) := by
  rw [sum?, ← toNat_addCarry, DoubleWord.ofNat?_toNat]

/-- The low word and the top bit of `a - (b + c)`, which wraps in 128 bits. -/
def wrappedDifference (a b c : UInt64) : DoubleWord :=
  let difference : BitVec 128 :=
    a.toBitVec.setWidth 128 - (b.toBitVec.setWidth 128 + c.toBitVec.setWidth 128)
  ⟨.ofBitVec (difference.setWidth 64), .ofBitVec ((difference >>> 127).setWidth 64)⟩

theorem toNat_low_wrappedDifference (a b c : UInt64) :
    (wrappedDifference a b c).low.toNat =
      (2 ^ 128 + a.toNat - (b.toNat + c.toNat)) % 2 ^ 64 := by
  have ha := a.toNat_lt
  have hb := b.toNat_lt
  have hc := c.toNat_lt
  simp only [wrappedDifference, UInt64.toNat_ofBitVec, BitVec.toNat_setWidth, BitVec.toNat_sub,
    BitVec.toNat_add, UInt64.toNat_toBitVec]
  omega

/-- The top bit is set exactly when the difference is negative. -/
theorem toNat_high_wrappedDifference (a b c : UInt64) :
    (wrappedDifference a b c).high.toNat = if a.toNat < b.toNat + c.toNat then 1 else 0 := by
  have ha := a.toNat_lt
  have hb := b.toNat_lt
  have hc := c.toNat_lt
  simp only [wrappedDifference, UInt64.toNat_ofBitVec, BitVec.toNat_setWidth, BitVec.toNat_sub,
    BitVec.toNat_add, UInt64.toNat_toBitVec, BitVec.toNat_ushiftRight, Nat.shiftRight_eq_div_pow]
  split <;> omega

theorem high_subBorrow (a b c : UInt64) :
    (subBorrow a b c).high = if a < b ∨ a - b < c then 1 else 0 := by
  by_cases hab : a < b <;> by_cases hc : a - b < c <;> simp [subBorrow, hab, hc]

theorem lt_or_sub_lt_iff (a b c : UInt64) :
    a < b ∨ a - b < c ↔ a.toNat < b.toNat + c.toNat := by
  have ha := a.toNat_lt
  have hb := b.toNat_lt
  rw [UInt64.lt_iff_toNat_lt, UInt64.lt_iff_toNat_lt, UInt64.toNat_sub]
  omega

/-- Two comparisons of words find the borrow of the difference in 128 bits. -/
theorem wrappedDifference_eq (a b c : UInt64) : wrappedDifference a b c = subBorrow a b c := by
  have hlow : (wrappedDifference a b c).low = (subBorrow a b c).low := by
    have ha := a.toNat_lt
    have hb := b.toNat_lt
    have hc := c.toNat_lt
    have hsub : (subBorrow a b c).low = a - b - c := rfl
    rw [← UInt64.toNat_inj, toNat_low_wrappedDifference, hsub, UInt64.toNat_sub, UInt64.toNat_sub]
    omega
  have hhigh : (wrappedDifference a b c).high = (subBorrow a b c).high := by
    rw [← UInt64.toNat_inj, toNat_high_wrappedDifference, high_subBorrow, apply_ite UInt64.toNat]
    simp only [lt_or_sub_lt_iff, UInt64.toNat_one, UInt64.toNat_zero]
  exact congrArg₂ DoubleWord.mk hlow hhigh

end Word

namespace UInt256

def word? (a : UInt256) (i : ℕ) : Option UInt64 := (a.wordAt i).toOption

theorem word?_of_lt (b : UInt256) {i : ℕ} (hi : i < 4) : b.word? i = some (b.word ⟨i, hi⟩) := by
  rw [word?, wordAt_of_lt b hi]
  rfl

def setWord? (a : UInt256) (i : ℕ) (w : UInt64) : Option UInt256 := (a.setWordAt i w).toOption

/-- Sets the words of the given indexes in turn. What `f` makes of two words and the carry is the
next word and the next carry. -/
def ripple? (f : UInt64 → UInt64 → UInt64 → Option DoubleWord) (a b : UInt256) :
    List ℕ → UInt256 → UInt64 → Option (UInt256 × UInt64)
  | [], out, carry => some (out, carry)
  | i :: indexes, out, carry => do
    let d ← f (← a.word? i) (← b.word? i) carry
    ripple? f a b indexes (← out.setWord? i d.low) d.high

def chain? (f : UInt64 → UInt64 → UInt64 → Option DoubleWord) (a b : UInt256) :
    Option (UInt256 × Bool) :=
  (ripple? f a b (List.range 4) 0 0).map fun s => (s.1, s.2 != 0)

theorem chain?_eq (f : UInt64 → UInt64 → UInt64 → DoubleWord) (a b : UInt256) :
    chain? (fun x y c => some (f x y c)) a b =
      let d₀ := f a.w0 b.w0 0
      let d₁ := f a.w1 b.w1 d₀.high
      let d₂ := f a.w2 b.w2 d₁.high
      let d₃ := f a.w3 b.w3 d₂.high
      some (⟨d₀.low, d₁.low, d₂.low, d₃.low⟩, d₃.high != 0) := rfl

theorem chain?_sum? (a b : UInt256) : chain? Word.sum? a b = some (a.addCarry b) := by
  have hsum : Word.sum? = fun x y c => some (Word.addCarry x y c) :=
    funext fun x => funext fun y => funext fun c => Word.sum?_eq x y c
  rw [hsum]
  exact chain?_eq Word.addCarry a b

theorem chain?_wrappedDifference (a b : UInt256) :
    chain? (fun x y c => some (Word.wrappedDifference x y c)) a b = some (a.subBorrow b) := by
  simp only [Word.wrappedDifference_eq]
  exact chain?_eq Word.subBorrow a b

theorem eq_and_eq_of_add_eq {x y : UInt256} {p q : Bool}
    (h : x.toNat + size * p.toNat = y.toNat + size * q.toNat) : x = y ∧ p = q := by
  have hx := x.toNat_lt
  have hy := y.toNat_lt
  obtain rfl : p = q := by
    cases p <;> cases q <;>
      simp only [size, Bool.toNat_true, Bool.toNat_false, reduceCtorEq] at * <;> omega
  exact ⟨toNat_inj.1 (Nat.add_right_cancel h), rfl⟩

theorem addCarry_eq_iff {a b s : UInt256} {carry : Bool} : a.addCarry b = (s, carry) ↔
    s.toNat + size * carry.toNat = a.toNat + b.toNat := by
  constructor
  · intro h
    have hsum := toNat_addCarry a b
    rwa [h] at hsum
  · intro h
    obtain ⟨hs, hcarry⟩ := eq_and_eq_of_add_eq ((toNat_addCarry a b).trans h.symm)
    exact Prod.ext hs hcarry

theorem subBorrow_eq_iff {a b d : UInt256} {borrow : Bool} : a.subBorrow b = (d, borrow) ↔
    d.toNat + b.toNat = a.toNat + size * borrow.toNat := by
  constructor
  · intro h
    have hdifference := toNat_subBorrow a b
    rwa [h] at hdifference
  · intro h
    have hdifference := toNat_subBorrow a b
    have heq : d.toNat + size * (a.subBorrow b).2.toNat =
        (a.subBorrow b).1.toNat + size * borrow.toNat := by omega
    obtain ⟨hd, hborrow⟩ := eq_and_eq_of_add_eq heq
    exact Prod.ext hd.symm hborrow

theorem subBorrow_addCarry (a b : UInt256) :
    (a.addCarry b).1.subBorrow b = (a, (a.addCarry b).2) :=
  subBorrow_eq_iff.2 (toNat_addCarry a b).symm

theorem addCarry_subBorrow (a b : UInt256) :
    (a.subBorrow b).1.addCarry b = (a, (a.subBorrow b).2) :=
  addCarry_eq_iff.2 (toNat_subBorrow a b).symm

theorem natCast_fst_subBorrow (a b : UInt256) :
    ((a.subBorrow b).1.toNat : ℤ) = ((a.toNat : ℤ) - b.toNat) % 2 ^ 256 := by
  have h := toNat_subBorrow a b
  have hd := (a.subBorrow b).1.toNat_lt
  simp only [size] at h hd
  omega

end UInt256

namespace Montgomery

open UInt256 (chain? size_eq_two_pow)

theorem natCast_sub {x y : UInt256} (hx : x.toNat < prime) (hy : y.toNat < prime) :
    ((sub x y).toNat : ℤ) = ((x.toNat : ℤ) - y.toNat) % prime := by
  rw [toNat_sub hx hy]
  simp only [prime] at *
  omega

theorem natCast_neg {x : UInt256} (hx : x.toNat < prime) :
    ((neg x).toNat : ℤ) = -(x.toNat : ℤ) % prime := by
  rw [toNat_neg hx]
  simp only [prime] at *
  omega

theorem toNat_add_lt {x y : UInt256} (hx : x.toNat < prime) (hy : y.toNat < prime) :
    (add x y).toNat < prime := by
  rw [toNat_add hx hy]
  exact Nat.mod_lt _ (by decide)

theorem toNat_sub_lt {x y : UInt256} (hx : x.toNat < prime) (hy : y.toNat < prime) :
    (sub x y).toNat < prime := by
  rw [toNat_sub hx hy]
  exact Nat.mod_lt _ (by decide)

theorem toNat_neg_lt {x : UInt256} (hx : x.toNat < prime) : (neg x).toNat < prime := by
  rw [toNat_neg hx]
  exact Nat.mod_lt _ (by decide)

theorem sub_add {x y : UInt256} (hx : x.toNat < prime) (hy : y.toNat < prime) :
    sub (add x y) y = x := by
  rw [← UInt256.toNat_inj, toNat_sub (toNat_add_lt hx hy) hy, toNat_add hx hy]
  simp only [prime] at *
  omega

theorem add_neg {x : UInt256} (hx : x.toNat < prime) : add x (neg x) = 0 := by
  rw [← UInt256.toNat_inj, toNat_add hx (toNat_neg_lt hx), toNat_neg hx, UInt256.toNat_zero]
  simp only [prime] at *
  omega

/-- A chain over the words, each worked out in 128 bits, makes the sum and the difference of two
integers modulo `2 ^ 256`. The flag is set exactly when the sum is reduced, or when the difference
is negative, which is how the words compare from the top one down, and either chain takes back the
other, flag and all. Of residues, the sum, the difference and the negative come out below the prime
as those of the integers modulo it. -/
theorem chains_exact :
    (∀ a b : UInt256,
      chain? Word.sum? a b = some (a.addCarry b) ∧
      chain? (fun u v c => some (Word.wrappedDifference u v c)) a b = some (a.subBorrow b) ∧
      (a.addCarry b).1.toNat = (a.toNat + b.toNat) % 2 ^ 256 ∧
      ((a.addCarry b).2 = true ↔ 2 ^ 256 ≤ a.toNat + b.toNat) ∧
      ((a.subBorrow b).1.toNat : ℤ) = ((a.toNat : ℤ) - b.toNat) % 2 ^ 256 ∧
      ((a.subBorrow b).2 = true ↔ a.toNat < b.toNat) ∧
      ((a.subBorrow b).2 = true ↔ compare a b = .lt) ∧
      (a.addCarry b).1.subBorrow b = (a, (a.addCarry b).2) ∧
      (a.subBorrow b).1.addCarry b = (a, (a.subBorrow b).2)) ∧
    ∀ x y : UInt256, x.toNat < prime → y.toNat < prime →
      (add x y).toNat = (x.toNat + y.toNat) % prime ∧
      ((sub x y).toNat : ℤ) = ((x.toNat : ℤ) - y.toNat) % prime ∧
      ((neg x).toNat : ℤ) = -(x.toNat : ℤ) % prime ∧
      (add x y).toNat < prime ∧ (sub x y).toNat < prime ∧ (neg x).toNat < prime ∧
      sub (add x y) y = x ∧ add x (neg x) = 0 := by
  refine ⟨fun a b => ⟨a.chain?_sum? b, a.chain?_wrappedDifference b, ?_, ?_,
    a.natCast_fst_subBorrow b, ?_, ?_, a.subBorrow_addCarry b, a.addCarry_subBorrow b⟩,
    fun x y hx hy => ⟨toNat_add hx hy, natCast_sub hx hy, natCast_neg hx, toNat_add_lt hx hy,
    toNat_sub_lt hx hy, toNat_neg_lt hx, sub_add hx hy, add_neg hx⟩⟩
  · rw [UInt256.toNat_fst_addCarry, size_eq_two_pow]
  · rw [UInt256.snd_addCarry, decide_eq_true_iff, size_eq_two_pow]
  · rw [UInt256.snd_subBorrow, decide_eq_true_iff, UInt256.lt_iff_toNat_lt]
  · rw [UInt256.snd_subBorrow, decide_eq_true_iff, UInt256.lt_iff_toNat_lt,
      UInt256.compare_eq_compare_toNat, Nat.compare_eq_lt]

/-- The greatest residue and one add up to the prime itself, which is reduced to zero. -/
theorem chains_exact_greatest :
    (modulus.subBorrow 1).1.toNat < prime ∧ (1 : UInt256).toNat < prime ∧
      (add (modulus.subBorrow 1).1 1).toNat = 0 ∧
      sub (add (modulus.subBorrow 1).1 1) 1 = (modulus.subBorrow 1).1 ∧
      add (modulus.subBorrow 1).1 (neg (modulus.subBorrow 1).1) = 0 := by
  have hgreatest : (modulus.subBorrow 1).1.toNat < prime := by decide
  have hone : (1 : UInt256).toNat < prime := by decide
  obtain ⟨hadd, -, -, -, -, -, hsub, hneg⟩ := chains_exact.2 _ _ hgreatest hone
  exact ⟨hgreatest, hone, hadd.trans (by decide), hsub, hneg⟩

end Montgomery

end FieldSponge
