import FieldSponge.UInt256.LongDivision

/-! Division with remainder of 256-bit integers: word by word when the divisor is one word, bit by
bit otherwise. There is no result for a divisor of zero. -/
namespace FieldSponge

namespace Word

/-- Quotient and remainder of the double word by `d`. The quotient is one word when `high < d`. -/
def divMod (n : DoubleWord) (d : UInt64) : UInt64 × UInt64 :=
  (UInt64.ofNat (n.toNat / d.toNat), UInt64.ofNat (n.toNat % d.toNat))

theorem divMod_exact {n : DoubleWord} {d : UInt64} (h : n.high < d) :
    (divMod n d).1.toNat = n.toNat / d.toNat ∧ (divMod n d).2.toNat = n.toNat % d.toNat := by
  have hn : n.high.toNat + 1 ≤ d.toNat := UInt64.lt_iff_toNat_lt.1 h
  have hm : UInt64.size * (n.high.toNat + 1) ≤ UInt64.size * d.toNat := Nat.mul_le_mul_left _ hn
  have hl := n.low.toNat_lt
  have hq : n.toNat / d.toNat < UInt64.size := by
    refine Nat.div_lt_of_lt_mul ?_
    rw [Nat.mul_comm]
    simp only [DoubleWord.toNat, UInt64.size] at *
    omega
  have hr : n.toNat % d.toNat < UInt64.size :=
    Nat.lt_trans (Nat.mod_lt _ (by omega)) d.toNat_lt
  simp only [divMod, UInt64.toNat_ofNat']
  exact ⟨Nat.mod_eq_of_lt hq, Nat.mod_eq_of_lt hr⟩

theorem snd_divMod_lt {n : DoubleWord} {d : UInt64} (h : n.high < d) : (divMod n d).2 < d := by
  rw [UInt64.lt_iff_toNat_lt, (divMod_exact h).2]
  exact Nat.mod_lt _ (Nat.lt_of_le_of_lt (Nat.zero_le _) (UInt64.lt_iff_toNat_lt.1 h))

/-- The division of words, the most significant first, by `d`: each word is divided together with
the remainder `r` above it. -/
def divModWords (d : UInt64) : UInt64 → List UInt64 → List UInt64 × UInt64
  | r, [] => ([], r)
  | r, w :: ws =>
    let s := divMod ⟨w, r⟩ d
    let t := divModWords d s.2 ws
    (s.1 :: t.1, t.2)

/-- The number that has the words behind the digits of `v`, the most significant first. -/
def value (v : Nat) : List UInt64 → Nat
  | [] => v
  | w :: ws => value (w.toNat + UInt64.size * v) ws

/-- What has been divided so far stays the divisor times the quotient and the remainder. -/
theorem value_divModWords {d r : UInt64} (hr : r < d) (v : Nat) (ws : List UInt64) :
    value (v * d.toNat + r.toNat) ws =
        value v (divModWords d r ws).1 * d.toNat + (divModWords d r ws).2.toNat ∧
      (divModWords d r ws).2 < d := by
  induction ws generalizing r v with
  | nil => exact ⟨rfl, hr⟩
  | cons w ws ih =>
    obtain ⟨hq, hr'⟩ := divMod_exact (n := ⟨w, r⟩) hr
    have hpass : w.toNat + UInt64.size * (v * d.toNat + r.toNat) =
        ((divMod ⟨w, r⟩ d).1.toNat + UInt64.size * v) * d.toNat + (divMod ⟨w, r⟩ d).2.toNat := by
      have hn := Nat.div_add_mod (DoubleWord.toNat ⟨w, r⟩) d.toNat
      rw [← hq, ← hr', DoubleWord.toNat] at hn
      grind
    rw [value, hpass]
    exact ih (snd_divMod_lt (n := ⟨w, r⟩) hr) _

end Word

namespace UInt256

def divModWord (n : UInt256) (d : UInt64) : UInt256 × UInt64 :=
  let s₃ := Word.divMod ⟨n.w3, 0⟩ d
  let s₂ := Word.divMod ⟨n.w2, s₃.2⟩ d
  let s₁ := Word.divMod ⟨n.w1, s₂.2⟩ d
  let s₀ := Word.divMod ⟨n.w0, s₁.2⟩ d
  (⟨s₀.1, s₁.1, s₂.1, s₃.1⟩, s₀.2)

theorem divModWords_eq (n : UInt256) (d : UInt64) :
    Word.divModWords d 0 [n.w3, n.w2, n.w1, n.w0] =
      ([(n.divModWord d).1.w3, (n.divModWord d).1.w2, (n.divModWord d).1.w1,
        (n.divModWord d).1.w0], (n.divModWord d).2) := rfl

theorem divModWord_exact (n : UInt256) {d : UInt64} (hd : d ≠ 0) :
    n.toNat = (divModWord n d).1.toNat * d.toNat + (divModWord n d).2.toNat ∧
      (divModWord n d).2 < d := by
  have h := Word.value_divModWords (UInt64.pos_iff_ne_zero.2 hd) 0 [n.w3, n.w2, n.w1, n.w0]
  rw [divModWords_eq, Nat.zero_mul, UInt64.toNat_zero, Nat.add_zero] at h
  exact h

def divModWord? (n : UInt256) (d : UInt64) : Option (UInt256 × UInt64) :=
  if d = 0 then none else some (divModWord n d)

def divMod? (n d : UInt256) : Option (UInt256 × UInt256) :=
  if d.isZero then none
  else if n < d then some (0, n)
  else
    let s := LongDivision.run n d n.bitLength ⟨0, 0⟩
    some (s.quotient, s.remainder)

theorem eq_zero_iff {a : UInt256} : a = 0 ↔ a.toNat = 0 := by
  rw [← toNat_inj, toNat_zero]

/-- There is no result for a divisor of zero, and the result is that of natural numbers
otherwise. -/
theorem divMod?_eq (n d : UInt256) : n.divMod? d =
    if d.toNat = 0 then none else some (ofNat (n.toNat / d.toNat), ofNat (n.toNat % d.toNat)) := by
  simp only [divMod?, isZero_iff, eq_zero_iff]
  split
  · rfl
  · rename_i hd
    split
    · rename_i h
      rw [lt_iff_toNat_lt] at h
      rw [Nat.div_eq_of_lt h, Nat.mod_eq_of_lt h, ofNat_toNat]
      rfl
    · have hl : n.bitLength ≤ 256 := by
        rw [bitLength_eq]
        split
        · decide
        · rename_i hn
          exact (Nat.log2_lt hn).2 n.toNat_lt
      obtain ⟨hq, hr⟩ := LongDivision.holds_run hd hl (LongDivision.holds_start n d)
      rw [Nat.shiftRight_zero, Nat.shiftLeft_zero] at hq
      rw [Nat.shiftRight_zero] at hr
      rw [← hq, ← hr, ofNat_toNat, ofNat_toNat]

end UInt256

end FieldSponge
