import FieldSponge.UInt256.Basic

/-! Addition and subtraction of 256-bit integers through a chain of word carries. The flag beside
the result is the carry or the borrow that leaves the top word. -/
namespace FieldSponge
namespace UInt256

/-- The sum modulo `2 ^ 256`, and whether it was reduced. -/
def addCarry (a b : UInt256) : UInt256 × Bool :=
  let s₀ := Word.addCarry a.w0 b.w0 0
  let s₁ := Word.addCarry a.w1 b.w1 s₀.high
  let s₂ := Word.addCarry a.w2 b.w2 s₁.high
  let s₃ := Word.addCarry a.w3 b.w3 s₂.high
  (⟨s₀.low, s₁.low, s₂.low, s₃.low⟩, s₃.high != 0)

/-- The difference modulo `2 ^ 256`, and whether it was negative. -/
def subBorrow (a b : UInt256) : UInt256 × Bool :=
  let d₀ := Word.subBorrow a.w0 b.w0 0
  let d₁ := Word.subBorrow a.w1 b.w1 d₀.high
  let d₂ := Word.subBorrow a.w2 b.w2 d₁.high
  let d₃ := Word.subBorrow a.w3 b.w3 d₂.high
  (⟨d₀.low, d₁.low, d₂.low, d₃.low⟩, d₃.high != 0)

theorem toNat_of_le_one {w : UInt64} (h : w.toNat ≤ 1) : w.toNat = (w != 0).toNat := by
  by_cases e : w = 0
  · simp [e]
  · have : w.toNat ≠ 0 := fun g => e (UInt64.toNat_inj.1 g)
    rw [bne_iff_ne.2 e]
    simp
    omega

theorem toNat_addCarry (a b : UInt256) :
    (addCarry a b).1.toNat + size * (addCarry a b).2.toNat = a.toNat + b.toNat := by
  have h₀ := Word.toNat_addCarry a.w0 b.w0 0
  have h₁ := Word.toNat_addCarry a.w1 b.w1 (Word.addCarry a.w0 b.w0 0).high
  simp only [addCarry]
  generalize Word.addCarry a.w0 b.w0 0 = s₀ at *
  have h₂ := Word.toNat_addCarry a.w2 b.w2 (Word.addCarry a.w1 b.w1 s₀.high).high
  generalize Word.addCarry a.w1 b.w1 s₀.high = s₁ at *
  have h₃ := Word.toNat_addCarry a.w3 b.w3 (Word.addCarry a.w2 b.w2 s₁.high).high
  generalize Word.addCarry a.w2 b.w2 s₁.high = s₂ at *
  generalize Word.addCarry a.w3 b.w3 s₂.high = s₃ at *
  have ha := a.toNat_lt
  have hb := b.toNat_lt
  simp only [DoubleWord.toNat, toNat, UInt64.size, size, UInt64.toNat_zero] at *
  rw [← toNat_of_le_one (by omega)]
  omega

theorem toNat_subBorrow (a b : UInt256) :
    (subBorrow a b).1.toNat + b.toNat = a.toNat + size * (subBorrow a b).2.toNat := by
  have h₀ := Word.toNat_subBorrow a.w0 b.w0 0 (by decide)
  have h₁ := Word.toNat_subBorrow a.w1 b.w1 _ h₀.2
  have h₂ := Word.toNat_subBorrow a.w2 b.w2 _ h₁.2
  have h₃ := Word.toNat_subBorrow a.w3 b.w3 _ h₂.2
  simp only [subBorrow, toNat]
  rw [← toNat_of_le_one h₃.2]
  simp only [UInt64.size, size, UInt64.toNat_zero] at *
  omega

theorem snd_addCarry (a b : UInt256) :
    (addCarry a b).2 = decide (size ≤ a.toNat + b.toNat) := by
  have h := toNat_addCarry a b
  have hs := (addCarry a b).1.toNat_lt
  cases e : (addCarry a b).2 <;> simp only [e, Bool.toNat_true, Bool.toNat_false] at h <;>
    symm <;> simp only [size, decide_eq_true_iff, decide_eq_false_iff_not] at * <;> omega

theorem toNat_fst_addCarry (a b : UInt256) :
    (addCarry a b).1.toNat = (a.toNat + b.toNat) % size := by
  have h := toNat_addCarry a b
  have hs := (addCarry a b).1.toNat_lt
  simp only [size] at *
  omega

theorem snd_subBorrow (a b : UInt256) : (subBorrow a b).2 = decide (a < b) := by
  have h := toNat_subBorrow a b
  have ha := a.toNat_lt
  have hs := (subBorrow a b).1.toNat_lt
  cases e : (subBorrow a b).2 <;> simp only [e, Bool.toNat_true, Bool.toNat_false] at h <;>
    symm <;>
      simp only [size, decide_eq_true_iff, decide_eq_false_iff_not, lt_iff_toNat_lt] at * <;>
      omega

theorem toNat_fst_subBorrow_of_le {a b : UInt256} (h : b ≤ a) :
    (subBorrow a b).1.toNat = a.toNat - b.toNat := by
  have k := toNat_subBorrow a b
  have hf := snd_subBorrow a b
  rw [le_iff_toNat_le] at h
  rw [hf, decide_eq_false (by rw [lt_iff_toNat_lt]; omega)] at k
  simp only [Bool.toNat_false] at k
  omega

end UInt256

end FieldSponge
