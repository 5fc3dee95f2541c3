import FieldSponge.UInt256.Basic

/-! Bits of 256-bit integers: bit queries and bitwise operations, word by word. Each is that of
natural numbers on the value. -/
namespace FieldSponge

namespace Word

/-- The least number of bits that holds the word. -/
def bitLength (w : UInt64) : Nat := if w = 0 then 0 else w.toNat.log2 + 1

def place (i : Nat) : Fin 64 := Fin.ofNat 64 i

@[simp] theorem val_place (i : Nat) : (place i).val = i % 64 := rfl

def bit (w : UInt64) (i : Fin 64) : Bool := (w >>> UInt64.ofNat i.val) &&& 1 != 0

theorem toNat_ofNat_mod (i : Fin 64) : (UInt64.ofNat i.val).toNat % 64 = i.val := by
  rw [UInt64.toNat_ofNat', Nat.mod_eq_of_lt (Nat.lt_trans i.isLt (by decide)),
    Nat.mod_eq_of_lt i.isLt]

@[simp] theorem testBit_toNat (w : UInt64) (i : Fin 64) : w.toNat.testBit i.val = bit w i := by
  have e : (w >>> UInt64.ofNat i.val).toNat = w.toNat >>> i.val := by
    rw [UInt64.toNat_shiftRight, toNat_ofNat_mod]
  have h : ((w >>> UInt64.ofNat i.val) &&& 1).toNat = (w.toNat >>> i.val) &&& 1 := by
    rw [UInt64.toNat_and, e, UInt64.toNat_one]
  rw [bit, Nat.testBit, Nat.and_comm, ← h, Bool.eq_iff_iff, bne_iff_ne, bne_iff_ne, ne_eq, ne_eq,
    ← UInt64.toNat_inj, UInt64.toNat_zero]

end Word

namespace UInt256

instance : AndOp UInt256 := ⟨fun a b => ofWords fun i => a.word i &&& b.word i⟩

instance : OrOp UInt256 := ⟨fun a b => ofWords fun i => a.word i ||| b.word i⟩

instance : XorOp UInt256 := ⟨fun a b => ofWords fun i => a.word i ^^^ b.word i⟩

/-- Digit `i` of the binary numeral, zero from 256 on. -/
def bit (a : UInt256) (i : Nat) : Bool :=
  if h : i < 256 then Word.bit (a.word ⟨i / 64, by omega⟩) (Word.place i) else false

/-- The least `k` with `a < 2 ^ k`. -/
def bitLength (a : UInt256) : Nat :=
  if a.w3 ≠ 0 then 192 + Word.bitLength a.w3
  else if a.w2 ≠ 0 then 128 + Word.bitLength a.w2
  else if a.w1 ≠ 0 then 64 + Word.bitLength a.w1
  else Word.bitLength a.w0

theorem testBit_add_word (w : UInt64) (n i : Nat) : (w.toNat + UInt64.size * n).testBit i
    = if i < 64 then w.toNat.testBit i else n.testBit (i - 64) := by
  rw [Nat.add_comm]
  exact Nat.testBit_two_pow_mul_add n w.toNat_lt i

theorem testBit_toNat_word (a : UInt256) (k : Fin 4) {i : Nat} (hi : i < 64) :
    a.toNat.testBit (64 * k.val + i) = (a.word k).toNat.testBit i := by
  match k with
  | 0 =>
    change a.toNat.testBit (64 * 0 + i) = a.w0.toNat.testBit i
    rw [toNat, testBit_add_word, if_pos (by omega), Nat.mul_zero, Nat.zero_add]
  | 1 =>
    change a.toNat.testBit (64 * 1 + i) = a.w1.toNat.testBit i
    rw [toNat, testBit_add_word, if_neg (by omega), testBit_add_word, if_pos (by omega),
      show 64 * 1 + i - 64 = i by omega]
  | 2 =>
    change a.toNat.testBit (64 * 2 + i) = a.w2.toNat.testBit i
    rw [toNat, testBit_add_word, if_neg (by omega), testBit_add_word, if_neg (by omega),
      testBit_add_word, if_pos (by omega), show 64 * 2 + i - 64 - 64 = i by omega]
  | 3 =>
    change a.toNat.testBit (64 * 3 + i) = a.w3.toNat.testBit i
    rw [toNat, testBit_add_word, if_neg (by omega), testBit_add_word, if_neg (by omega),
      testBit_add_word, if_neg (by omega), show 64 * 3 + i - 64 - 64 - 64 = i by omega]

theorem testBit_toNat_of_le (a : UInt256) {i : Nat} (hi : 256 ≤ i) : a.toNat.testBit i = false :=
  Nat.testBit_lt_two_pow (Nat.lt_of_lt_of_le a.toNat_lt
    (Nat.pow_le_pow_right (n := 2) (by decide) hi))

@[simp] theorem testBit_toNat (a : UInt256) (i : Nat) : a.toNat.testBit i = a.bit i := by
  by_cases h : i < 256
  · have e := testBit_toNat_word a ⟨i / 64, by omega⟩ (Nat.mod_lt i (by decide : 0 < 64))
    rw [show 64 * (i / 64) + i % 64 = i by omega] at e
    rw [bit, dif_pos h, e]
    exact Word.testBit_toNat _ (Word.place i)
  · rw [bit, dif_neg h, testBit_toNat_of_le a (by omega)]

theorem bit_ofWords (f : Fin 4 → UInt64) {i : Nat} (h : i < 256) :
    (ofWords f).bit i = Word.bit (f ⟨i / 64, by omega⟩) (Word.place i) := by
  rw [bit, dif_pos h, word_ofWords]

@[simp] theorem bit_and (a b : UInt256) (i : Nat) : (a &&& b).bit i = (a.bit i && b.bit i) := by
  by_cases h : i < 256
  · change (ofWords _).bit i = _
    simp [bit, h, ← Word.testBit_toNat]
  · simp [bit, h]

@[simp] theorem bit_or (a b : UInt256) (i : Nat) : (a ||| b).bit i = (a.bit i || b.bit i) := by
  by_cases h : i < 256
  · change (ofWords _).bit i = _
    simp [bit, h, ← Word.testBit_toNat]
  · simp [bit, h]

@[simp] theorem bit_xor (a b : UInt256) (i : Nat) : (a ^^^ b).bit i = (a.bit i ^^ b.bit i) := by
  by_cases h : i < 256
  · change (ofWords _).bit i = _
    simp [bit, h, ← Word.testBit_toNat]
  · simp [bit, h]

@[simp] theorem toNat_and (a b : UInt256) : (a &&& b).toNat = a.toNat &&& b.toNat :=
  Nat.eq_of_testBit_eq fun i => by simp

@[simp] theorem toNat_or (a b : UInt256) : (a ||| b).toNat = a.toNat ||| b.toNat :=
  Nat.eq_of_testBit_eq fun i => by simp

@[simp] theorem toNat_xor (a b : UInt256) : (a ^^^ b).toNat = a.toNat ^^^ b.toNat :=
  Nat.eq_of_testBit_eq fun i => by simp

theorem log2_add_word (w : UInt64) {n : Nat} (h : n ≠ 0) :
    (w.toNat + UInt64.size * n).log2 = 64 + n.log2 := by
  have hs : UInt64.size = 2 ^ 64 := rfl
  have hw : w.toNat < 2 ^ 64 := w.toNat_lt
  have hl : 2 ^ 64 * 2 ^ n.log2 ≤ 2 ^ 64 * n := Nat.mul_le_mul_left _ (Nat.log2_self_le h)
  have hu : 2 ^ 64 * (n + 1) ≤ 2 ^ 64 * 2 ^ (n.log2 + 1) :=
    Nat.mul_le_mul_left _ (Nat.lt_log2_self (n := n))
  rw [Nat.log2_eq_iff (by rw [hs]; omega), hs, Nat.pow_add, Nat.add_assoc, Nat.pow_add 2 64]
  omega

/-- The bit length is one more than the binary logarithm, and zero for zero. -/
theorem bitLength_eq (a : UInt256) :
    a.bitLength = if a.toNat = 0 then 0 else a.toNat.log2 + 1 := by
  have hz : ∀ w : UInt64, w ≠ 0 → w.toNat ≠ 0 := fun w h g => h (UInt64.toNat_inj.1 g)
  have e : ∀ (w : UInt64) (n : Nat), n ≠ 0 → w.toNat + UInt64.size * n ≠ 0 := by
    intro w n h
    simp only [UInt64.size]
    omega
  by_cases h₃ : a.w3 = 0
  · by_cases h₂ : a.w2 = 0
    · by_cases h₁ : a.w1 = 0
      · by_cases h₀ : a.w0 = 0
        · simp [bitLength, Word.bitLength, toNat, h₀, h₁, h₂, h₃]
        · simp [bitLength, Word.bitLength, toNat, h₀, h₁, h₂, h₃, hz _ h₀]
      · have n₁ := hz _ h₁
        simp only [bitLength, Word.bitLength, toNat, h₁, h₂, h₃, UInt64.toNat_zero, Nat.mul_zero,
          Nat.add_zero, log2_add_word _ n₁, e _ _ n₁, if_false, ne_eq, not_true, not_false_eq_true,
          if_true]
        omega
    · have n₂ := hz _ h₂
      simp only [bitLength, Word.bitLength, toNat, h₂, h₃, UInt64.toNat_zero, Nat.mul_zero,
        Nat.add_zero, log2_add_word _ n₂, log2_add_word _ (e _ _ n₂), e _ _ (e _ _ n₂), if_false,
        ne_eq, not_true, not_false_eq_true, if_true]
      omega
  · have n₃ := hz _ h₃
    simp only [bitLength, Word.bitLength, toNat, h₃, log2_add_word _ n₃, log2_add_word _ (e _ _ n₃),
      log2_add_word _ (e _ _ (e _ _ n₃)), e _ _ (e _ _ (e _ _ n₃)), if_false, ne_eq,
      not_false_eq_true, if_true]
    omega

end UInt256

end FieldSponge
