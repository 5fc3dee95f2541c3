import FieldSponge.UInt256.Shift
import Mathlib.Logic.Function.Basic
import Mathlib.Order.Bounds.Defs
import Mathlib.Tactic.NormNum

/-! Shifts, bits and bitwise operations of 256-bit integers as those of natural numbers. The shifts
are followed once more through the loops over words that make them, with every word looked up by its
index and every word shifted by a number: no index is that of a missing word, and no shift is by
a whole word. -/
namespace FieldSponge

namespace Word

/-- What stops work on words by their indexes: an index that no word has, a shift of a word by all
its bits or more, or a difference below zero. -/
inductive Fault where
  | index (i : ℕ)
  | amount (bits : ℕ)
  | negative (m n : ℕ)
deriving DecidableEq, Repr

def shiftedUp (w : UInt64) (bits : ℕ) : Except Fault UInt64 :=
  if bits < 64 then .ok (w <<< UInt64.ofNat bits) else .error (.amount bits)

def shiftedDown (w : UInt64) (bits : ℕ) : Except Fault UInt64 :=
  if bits < 64 then .ok (w >>> UInt64.ofNat bits) else .error (.amount bits)

def difference (m n : ℕ) : Except Fault ℕ :=
  if n ≤ m then .ok (m - n) else .error (.negative m n)

theorem shiftedUp_of_lt (w : UInt64) {bits : ℕ} (h : bits < 64) :
    shiftedUp w bits = .ok (w <<< UInt64.ofNat bits) := if_pos h

theorem shiftedDown_of_lt (w : UInt64) {bits : ℕ} (h : bits < 64) :
    shiftedDown w bits = .ok (w >>> UInt64.ofNat bits) := if_pos h

theorem and_one_eq (w : UInt64) : (w &&& 1 == 1) = (w &&& 1 != 0) := by
  have hbit : (w &&& 1).toNat = w.toNat % 2 := by
    rw [UInt64.toNat_and, UInt64.toNat_one, Nat.and_one_is_mod]
  rw [Bool.eq_iff_iff, beq_iff_eq, bne_iff_ne, ne_eq, ← UInt64.toNat_inj, ← UInt64.toNat_inj, hbit,
    UInt64.toNat_one, UInt64.toNat_zero]
  omega

theorem difference_of_le {m n : ℕ} (h : n ≤ m) : difference m n = .ok (m - n) := if_pos h

end Word

namespace UInt256

def wordAt (a : UInt256) (i : ℕ) : Except Word.Fault UInt64 :=
  if h : i < 4 then .ok (a.word ⟨i, h⟩) else .error (.index i)

def setWord (a : UInt256) (i : Fin 4) (w : UInt64) : UInt256 :=
  ofWords (Function.update a.word i w)

def setWordAt (a : UInt256) (i : ℕ) (w : UInt64) : Except Word.Fault UInt256 :=
  if h : i < 4 then .ok (a.setWord ⟨i, h⟩ w) else .error (.index i)

theorem wordAt_of_lt (a : UInt256) {i : ℕ} (h : i < 4) : a.wordAt i = .ok (a.word ⟨i, h⟩) :=
  dif_pos h

theorem setWordAt_of_lt (a : UInt256) {i : ℕ} (h : i < 4) (w : UInt64) :
    a.setWordAt i w = .ok (a.setWord ⟨i, h⟩ w) := dif_pos h

theorem word_setWord (a : UInt256) (i j : Fin 4) (w : UInt64) :
    (a.setWord i w).word j = if j = i then w else a.word j := by
  rw [setWord, word_ofWords, Function.update_apply]

/-- Word `i` of a shift up by whole words and then by bits: what stays of the word that comes there,
and what the word below it spills. -/
def entryUp (a : UInt256) (words bits i : ℕ) : Except Word.Fault UInt64 := do
  let source ← Word.difference i words
  let kept ← Word.shiftedUp (← a.wordAt source) bits
  if bits ≠ 0 ∧ 0 < source then
    let rest ← Word.difference 64 bits
    let spilled ← Word.shiftedDown (← a.wordAt (source - 1)) rest
    return kept ||| spilled
  else return kept

def entryDown (a : UInt256) (words bits i : ℕ) : Except Word.Fault UInt64 := do
  let source := i + words
  let kept ← Word.shiftedDown (← a.wordAt source) bits
  if bits ≠ 0 ∧ source + 1 < 4 then
    let rest ← Word.difference 64 bits
    let spilled ← Word.shiftedUp (← a.wordAt (source + 1)) rest
    return kept ||| spilled
  else return kept

/-- Sets the words of the given indexes in turn. -/
def fill (entry : ℕ → Except Word.Fault UInt64) : List ℕ → UInt256 → Except Word.Fault UInt256
  | [], out => .ok out
  | i :: indexes, out => do
    let out ← out.setWordAt i (← entry i)
    fill entry indexes out

def shiftLeftByIndex (a : UInt256) (n : ℕ) : Except Word.Fault UInt256 :=
  if bitWidth ≤ n then .ok 0
  else fill (a.entryUp (n / 64) (n % 64)) (List.range' (n / 64) (4 - n / 64)).reverse 0

def shiftRightByIndex (a : UInt256) (n : ℕ) : Except Word.Fault UInt256 :=
  if bitWidth ≤ n then .ok 0
  else do fill (a.entryDown (n / 64) (n % 64)) (List.range (← Word.difference 4 (n / 64))) 0

def bitByIndex (a : UInt256) (i : ℕ) : Except Word.Fault Bool :=
  if i < bitWidth then do
    let w ← Word.shiftedDown (← a.wordAt (i / 64)) (i % 64)
    return w &&& 1 == 1
  else .ok false

theorem entryUp_eq (a : UInt256) {words i : ℕ} (n : ℕ) (hw : words ≤ i) (hi : i < 4) :
    a.entryUp words (n % 64) i = .ok (a.wordShiftedUp (Word.place n) ⟨i - words, by omega⟩) := by
  have hn : n % 64 < 64 := Nat.mod_lt n (by decide)
  have hs : i - words < 4 := by omega
  rw [entryUp, Word.difference_of_le hw, wordShiftedUp, Word.val_place]
  simp only [bind, Except.bind, wordAt_of_lt a hs, Word.shiftedUp_of_lt _ hn]
  by_cases h : n % 64 = 0 ∨ i - words = 0
  · rw [if_neg (by omega), if_pos h]
    rfl
  · have hrest : 64 - n % 64 < 64 := by omega
    have hbelow : i - words - 1 < 4 := by omega
    rw [if_pos (by omega), if_neg h, Word.difference_of_le hn.le]
    simp only [wordAt_of_lt a hbelow, Word.shiftedDown_of_lt _ hrest]
    rfl

theorem entryDown_eq (a : UInt256) {words i : ℕ} (n : ℕ) (hi : i + words < 4) :
    a.entryDown words (n % 64) i =
      .ok (a.wordShiftedDown (Word.place n) ⟨i + words, hi⟩) := by
  have hn : n % 64 < 64 := Nat.mod_lt n (by decide)
  rw [entryDown]
  simp only [bind, Except.bind, wordAt_of_lt a hi, Word.shiftedDown_of_lt _ hn]
  by_cases h : (Word.place n).val = 0 ∨ i + words = 3
  · rw [wordShiftedDown, dif_pos h, if_neg (by rw [Word.val_place] at h; omega)]
    rfl
  · rw [wordShiftedDown, dif_neg h]
    rw [Word.val_place] at h
    have hrest : 64 - n % 64 < 64 := by omega
    have habove : i + words + 1 < 4 := by omega
    rw [if_pos (by omega), Word.difference_of_le hn.le]
    simp only [wordAt_of_lt a habove, Word.shiftedUp_of_lt _ hrest]
    rfl

/-- Words that are all there are filled, and the others stay. -/
theorem exists_fill {entry : ℕ → Except Word.Fault UInt64} {f : Fin 4 → UInt64} {indexes : List ℕ}
    (h : ∀ i ∈ indexes, ∃ hi : i < 4, entry i = .ok (f ⟨i, hi⟩)) (out : UInt256) :
    ∃ filled, fill entry indexes out = .ok filled ∧
      ∀ j : Fin 4, filled.word j = if j.val ∈ indexes then f j else out.word j := by
  induction indexes generalizing out with
  | nil => exact ⟨out, rfl, fun j => by simp⟩
  | cons i indexes ih =>
    obtain ⟨hi, hentry⟩ := h i List.mem_cons_self
    obtain ⟨filled, hfill, hword⟩ :=
      ih (fun j hj => h j (List.mem_cons_of_mem i hj)) (out.setWord ⟨i, hi⟩ (f ⟨i, hi⟩))
    refine ⟨filled, ?_, fun j => ?_⟩
    · rw [fill, hentry]
      simp only [bind, Except.bind, setWordAt_of_lt out hi, hfill]
    · rw [hword, word_setWord]
      by_cases hj : j = ⟨i, hi⟩
      · subst hj
        simp
      · have hne : j.val ≠ i := fun e => hj (Fin.ext e)
        simp [hj, hne]

/-- Filling the words of `b` that are not zero makes `b`. -/
theorem fill_zero_eq {entry : ℕ → Except Word.Fault UInt64} {indexes : List ℕ} {b : UInt256}
    (h : ∀ i ∈ indexes, ∃ hi : i < 4, entry i = .ok (b.word ⟨i, hi⟩))
    (hzero : ∀ j : Fin 4, j.val ∉ indexes → b.word j = 0) : fill entry indexes 0 = .ok b := by
  obtain ⟨filled, hfill, hword⟩ := exists_fill h 0
  rw [hfill, ← ofWords_word filled, ← ofWords_word b]
  refine congrArg (fun f => Except.ok (ofWords f)) (funext fun j => (hword j).trans ?_)
  split
  · rfl
  · rename_i hj
    rw [hzero j hj]
    match j with
    | 0 | 1 | 2 | 3 => rfl

theorem word_shiftLeft_of_le (a : UInt256) {n : ℕ} {i : Fin 4} (h : n / 64 ≤ i.val)
    (hi : i.val - n / 64 < 4) :
    (a <<< n).word i = a.wordShiftedUp (Word.place n) ⟨i.val - n / 64, hi⟩ :=
  (word_ofWords _ i).trans (dif_pos h)

theorem word_shiftLeft_of_lt (a : UInt256) {n : ℕ} {i : Fin 4} (h : i.val < n / 64) :
    (a <<< n).word i = 0 :=
  (word_ofWords _ i).trans (dif_neg (Nat.not_le.2 h))

theorem word_shiftRight (a : UInt256) (n : ℕ) (i : Fin 4) : (a >>> n).word i =
    if h : i.val + n / 64 < 4 then a.wordShiftedDown (Word.place n) ⟨i.val + n / 64, h⟩ else 0 :=
  word_ofWords _ i

theorem eq_zero_of_word_eq_zero {a : UInt256} (h : ∀ i, a.word i = 0) : a = 0 := by
  rw [← ofWords_word a, funext h]
  rfl

theorem shiftLeftByIndex_eq (a : UInt256) (n : ℕ) : a.shiftLeftByIndex n = .ok (a <<< n) := by
  rw [shiftLeftByIndex, bitWidth]
  split
  · -- From 256 bits on no word comes to any place.
    refine congrArg _ (eq_zero_of_word_eq_zero fun i => ?_).symm
    exact a.word_shiftLeft_of_lt (by omega)
  · apply fill_zero_eq
    · intro i hi
      obtain ⟨hle, hlt⟩ : n / 64 ≤ i ∧ i < 4 := by
        rw [List.mem_reverse, List.mem_range'_1] at hi
        omega
      refine ⟨hlt, ?_⟩
      rw [a.entryUp_eq n hle hlt, a.word_shiftLeft_of_le hle]
    · intro j hj
      rw [List.mem_reverse, List.mem_range'_1] at hj
      exact a.word_shiftLeft_of_lt (by omega)

theorem shiftRightByIndex_eq (a : UInt256) (n : ℕ) : a.shiftRightByIndex n = .ok (a >>> n) := by
  rw [shiftRightByIndex, bitWidth]
  split
  · refine congrArg _ (eq_zero_of_word_eq_zero fun i => ?_).symm
    rw [word_shiftRight, dif_neg (by omega)]
  · rw [Word.difference_of_le (by omega)]
    apply fill_zero_eq
    · intro i hi
      have hlt : i + n / 64 < 4 := by
        rw [List.mem_range] at hi
        omega
      refine ⟨by omega, ?_⟩
      rw [a.entryDown_eq n hlt, word_shiftRight, dif_pos hlt]
    · intro j hj
      rw [List.mem_range] at hj
      rw [word_shiftRight, dif_neg (by omega)]

theorem bitByIndex_eq (a : UInt256) (i : ℕ) : a.bitByIndex i = .ok (a.bit i) := by
  have hm : i % 64 < 64 := Nat.mod_lt i (by decide)
  rw [bitByIndex, bit, bitWidth]
  split
  · rename_i h
    have hd : i / 64 < 4 := by omega
    simp only [bind, Except.bind, wordAt_of_lt a hd, Word.shiftedDown_of_lt _ hm]
    exact congrArg Except.ok (Word.and_one_eq _)
  · rfl

theorem size_eq_two_pow : size = 2 ^ 256 := by norm_num

theorem toNat_shiftLeft_eq (a : UInt256) (n : ℕ) :
    (a <<< n).toNat = a.toNat * 2 ^ n % 2 ^ 256 := by
  rw [toNat_shiftLeft, Nat.shiftLeft_eq, size_eq_two_pow]

theorem toNat_shiftRight_eq (a : UInt256) (n : ℕ) : (a >>> n).toNat = a.toNat / 2 ^ n := by
  rw [toNat_shiftRight, Nat.shiftRight_eq_div_pow]

theorem toNat_bit (a : UInt256) (i : ℕ) : (a.bit i).toNat = a.toNat / 2 ^ i % 2 := by
  rw [← testBit_toNat, Nat.toNat_testBit]

theorem bitLength_le_iff (a : UInt256) (k : ℕ) : a.bitLength ≤ k ↔ a.toNat < 2 ^ k := by
  rw [bitLength_eq]
  split
  · rename_i hz
    simp [hz]
  · rename_i hz
    exact Nat.log2_lt hz

theorem isLeast_bitLength (a : UInt256) : IsLeast {k | a.toNat < 2 ^ k} a.bitLength :=
  ⟨(a.bitLength_le_iff _).1 le_rfl, fun k hk => (a.bitLength_le_iff k).2 hk⟩

/-- A shift up multiplies by a power of two modulo `2 ^ 256` and a shift down divides by it, for a
shift of any width; the loops over words that make them meet no missing word and shift no word by
64 bits or more. A bit is the binary digit of the number and zero from 256 on, the bit length is the
least width that holds the number, and a bitwise operation is that of the digits. -/
theorem binaryOperations_exact :
    (∀ (a : UInt256) (n : ℕ),
      (a <<< n).toNat = a.toNat * 2 ^ n % 2 ^ 256 ∧
      (a >>> n).toNat = a.toNat / 2 ^ n ∧
      a.shiftLeftByIndex n = .ok (a <<< n) ∧
      a.shiftRightByIndex n = .ok (a >>> n)) ∧
    (∀ (a : UInt256) (i : ℕ),
      (a.bit i).toNat = a.toNat / 2 ^ i % 2 ∧
      (256 ≤ i → a.bit i = false) ∧
      a.bitByIndex i = .ok (a.bit i)) ∧
    (∀ a : UInt256, IsLeast {k | a.toNat < 2 ^ k} a.bitLength) ∧
    ∀ (a b : UInt256) (i : ℕ),
      (a &&& b).bit i = (a.bit i && b.bit i) ∧
      (a ||| b).bit i = (a.bit i || b.bit i) ∧
      (a ^^^ b).bit i = (a.bit i ^^ b.bit i) := by
  refine ⟨fun a n => ⟨toNat_shiftLeft_eq a n, toNat_shiftRight_eq a n, a.shiftLeftByIndex_eq n,
    a.shiftRightByIndex_eq n⟩, fun a i => ⟨toNat_bit a i, fun hi => ?_, a.bitByIndex_eq i⟩,
    isLeast_bitLength, fun a b i => ⟨bit_and a b i, bit_or a b i, bit_xor a b i⟩⟩
  rw [← testBit_toNat]
  exact testBit_toNat_of_le a hi

end UInt256

end FieldSponge
