import FieldSponge.UInt256.Bits

/-! Shifts of 256-bit integers, word by word. Every index is that of a word that exists, and every
shift of a word is by less than its width. On values they are the shifts of natural numbers, cut at
256 bits. -/
namespace FieldSponge
namespace UInt256

/-- Word `i` of `a` moved up by `s` bits: what stays of the word, and what comes from the word
below. -/
def wordShiftedUp (a : UInt256) (s : Fin 64) (i : Fin 4) : UInt64 :=
  let kept := a.word i <<< UInt64.ofNat s.val
  if s.val = 0 ∨ i.val = 0 then kept
  else kept ||| a.word ⟨i.val - 1, by omega⟩ >>> UInt64.ofNat (64 - s.val)

/-- Word `i` of `a` moved down by `s` bits: what stays of the word, and what comes from the word
above. -/
def wordShiftedDown (a : UInt256) (s : Fin 64) (i : Fin 4) : UInt64 :=
  let kept := a.word i >>> UInt64.ofNat s.val
  if h : s.val = 0 ∨ i.val = 3 then kept
  else kept ||| a.word ⟨i.val + 1, by omega⟩ <<< UInt64.ofNat (64 - s.val)

/-- `a * 2 ^ n` without the bits from 256 on. -/
def shiftLeft (a : UInt256) (n : Nat) : UInt256 :=
  ofWords fun i =>
    if h : n / 64 ≤ i.val then a.wordShiftedUp (Word.place n) ⟨i.val - n / 64, by omega⟩ else 0

/-- `a / 2 ^ n`, rounded down. -/
def shiftRight (a : UInt256) (n : Nat) : UInt256 :=
  ofWords fun i =>
    if h : i.val + n / 64 < 4 then a.wordShiftedDown (Word.place n) ⟨i.val + n / 64, h⟩ else 0

instance : HShiftLeft UInt256 Nat UInt256 := ⟨shiftLeft⟩

instance : HShiftRight UInt256 Nat UInt256 := ⟨shiftRight⟩

theorem testBit_word_of_le (w : UInt64) {i : Nat} (hi : 64 ≤ i) : w.toNat.testBit i = false :=
  Nat.testBit_lt_two_pow (Nat.lt_of_lt_of_le w.toNat_lt
    (Nat.pow_le_pow_right (n := 2) (by decide) hi))

theorem testBit_shiftedUp (w : UInt64) (s i : Fin 64) :
    (w <<< UInt64.ofNat s.val).toNat.testBit i.val
      = (decide (s.val ≤ i.val) && w.toNat.testBit (i.val - s.val)) := by
  rw [UInt64.toNat_shiftLeft, Word.toNat_ofNat_mod, Nat.testBit_mod_two_pow, Nat.testBit_shiftLeft]
  simp [i.isLt]

theorem testBit_shiftedDown (w : UInt64) (s i : Fin 64) :
    (w >>> UInt64.ofNat s.val).toNat.testBit i.val = w.toNat.testBit (s.val + i.val) := by
  rw [UInt64.toNat_shiftRight, Word.toNat_ofNat_mod, Nat.testBit_shiftRight]

theorem testBit_wordShiftedUp (a : UInt256) (s : Fin 64) (k : Fin 4) (i : Fin 64) :
    (a.wordShiftedUp s k).toNat.testBit i.val
      = (decide (s.val ≤ 64 * k.val + i.val) && a.toNat.testBit (64 * k.val + i.val - s.val)) := by
  by_cases h : s.val ≤ i.val
  · have e := testBit_toNat_word a k (show i.val - s.val < 64 by omega)
    rw [show 64 * k.val + i.val - s.val = 64 * k.val + (i.val - s.val) by omega, e, wordShiftedUp,
      decide_eq_true (by omega), Bool.true_and]
    split
    · rw [testBit_shiftedUp, decide_eq_true h, Bool.true_and]
    · rename_i hs
      have hd : 64 ≤ 64 - s.val + i.val := by omega
      rw [UInt64.toNat_or, Nat.testBit_or, testBit_shiftedUp, decide_eq_true h, Bool.true_and,
        testBit_shiftedDown _ ⟨64 - s.val, by omega⟩, testBit_word_of_le _ hd, Bool.or_false]
  · rw [wordShiftedUp]
    split
    · rename_i hk
      have hk : k.val = 0 := by omega
      rw [testBit_shiftedUp, decide_eq_false h, decide_eq_false (by omega), Bool.false_and,
        Bool.false_and]
    · rename_i hk
      have e := testBit_toNat_word a ⟨k.val - 1, by omega⟩ (show 64 - s.val + i.val < 64 by omega)
      rw [show 64 * k.val + i.val - s.val = 64 * (k.val - 1) + (64 - s.val + i.val) by omega, e,
        UInt64.toNat_or, Nat.testBit_or, testBit_shiftedUp, decide_eq_false h, Bool.false_and,
        Bool.false_or, testBit_shiftedDown _ ⟨64 - s.val, by omega⟩, decide_eq_true (by omega),
        Bool.true_and]

theorem testBit_wordShiftedDown (a : UInt256) (s : Fin 64) (k : Fin 4) (i : Fin 64) :
    (a.wordShiftedDown s k).toNat.testBit i.val = a.toNat.testBit (64 * k.val + i.val + s.val) := by
  by_cases h : s.val + i.val < 64
  · have e := testBit_toNat_word a k h
    rw [show 64 * k.val + i.val + s.val = 64 * k.val + (s.val + i.val) by omega, e, wordShiftedDown]
    split
    · rw [testBit_shiftedDown]
    · rw [UInt64.toNat_or, Nat.testBit_or, testBit_shiftedDown,
        testBit_shiftedUp _ ⟨64 - s.val, by omega⟩, decide_eq_false (by simp only; omega),
        Bool.false_and, Bool.or_false]
  · rw [wordShiftedDown]
    split
    · rw [testBit_shiftedDown, testBit_word_of_le _ (by omega), testBit_toNat_of_le _ (by omega)]
    · rename_i hk
      have e := testBit_toNat_word a ⟨k.val + 1, by omega⟩ (show s.val + i.val - 64 < 64 by omega)
      rw [show 64 * k.val + i.val + s.val = 64 * (k.val + 1) + (s.val + i.val - 64) by omega, e,
        UInt64.toNat_or, Nat.testBit_or, testBit_shiftedDown, testBit_word_of_le _ (by omega),
        Bool.false_or, testBit_shiftedUp _ ⟨64 - s.val, by omega⟩,
        decide_eq_true (by simp only; omega), Bool.true_and]
      congr 1
      simp only
      omega

@[simp] theorem bit_shiftLeft (a : UInt256) (n i : Nat) :
    (a <<< n).bit i = (decide (n ≤ i ∧ i < 256) && a.bit (i - n)) := by
  by_cases h : i < 256
  · have hn := Word.val_place n
    have hi := Word.val_place i
    change (ofWords _).bit i = _
    rw [bit_ofWords _ h, ← Word.testBit_toNat, ← testBit_toNat]
    split
    · rename_i hk
      simp only at hk
      rw [testBit_wordShiftedUp, hn, hi]
      by_cases g : n ≤ i
      · rw [decide_eq_true (by simp only; omega), decide_eq_true (by omega)]
        congr 2
        simp only
        omega
      · rw [decide_eq_false (by simp only; omega), decide_eq_false (by omega), Bool.false_and,
          Bool.false_and]
    · rename_i hk
      simp only at hk
      rw [UInt64.toNat_zero, Nat.zero_testBit, decide_eq_false (by omega), Bool.false_and]
  · simp [bit, h]

@[simp] theorem bit_shiftRight (a : UInt256) (n i : Nat) : (a >>> n).bit i = a.bit (n + i) := by
  by_cases h : i < 256
  · have hn := Word.val_place n
    have hi := Word.val_place i
    change (ofWords _).bit i = _
    rw [bit_ofWords _ h, ← Word.testBit_toNat, ← testBit_toNat]
    split
    · rename_i hk
      simp only at hk
      rw [testBit_wordShiftedDown, hn, hi]
      congr 1
      simp only
      omega
    · rename_i hk
      simp only at hk
      rw [UInt64.toNat_zero, Nat.zero_testBit, testBit_toNat_of_le _ (by omega)]
  · simp [bit, h, show ¬ n + i < 256 by omega]

theorem toNat_shiftLeft (a : UInt256) (n : Nat) : (a <<< n).toNat = (a.toNat <<< n) % size :=
  Nat.eq_of_testBit_eq fun i => by
    rw [show size = 2 ^ 256 from rfl, Nat.testBit_mod_two_pow, Nat.testBit_shiftLeft, testBit_toNat,
      testBit_toNat, bit_shiftLeft]
    by_cases h : i < 256 <;> by_cases g : n ≤ i <;> simp [h, g]

theorem toNat_shiftRight (a : UInt256) (n : Nat) : (a >>> n).toNat = a.toNat >>> n :=
  Nat.eq_of_testBit_eq fun i => by
    rw [Nat.testBit_shiftRight, testBit_toNat, testBit_toNat, bit_shiftRight]

end UInt256

end FieldSponge
