import FieldSponge.Felt.Arithmetic
import FieldSponge.Proofs.ByteEncodings

/-! The order of elements. Order is decided on the words of the canonical values, from the top word
down, and equality on the stored words, which the canonical values determine. As many bytes, the
most significant first, are compared like the integers of which they are the digits. So words,
bytes and integers give one order, and it is total. -/
namespace FieldSponge

theorem compare_byte (a b : UInt8) : compare a b = compare a.toNat b.toNat := by
  simp only [compare, compareOfLessAndEq, UInt8.lt_iff_toNat_lt, UInt8.toNat_inj]

namespace Bytes

theorem littleEndian_lt (bytes : List UInt8) : littleEndian bytes < 256 ^ bytes.length := by
  have hdigit : ∀ d ∈ bytes.map UInt8.toNat, d < 256 := fun d hd => by
    obtain ⟨b, -, rfl⟩ := List.mem_map.1 hd
    exact b.toNat_lt
  have hlt := Nat.ofDigits_lt_base_pow_length (by decide) hdigit
  rwa [List.length_map] at hlt

theorem bigEndian_lt (bytes : List UInt8) : bigEndian bytes < 256 ^ bytes.length := by
  simpa [bigEndian] using littleEndian_lt bytes.reverse

theorem bigEndian_cons (b : UInt8) (bytes : List UInt8) :
    bigEndian (b :: bytes) = bigEndian bytes + 256 ^ bytes.length * b.toNat := by
  simp [bigEndian, littleEndian_append]

/-- The first bytes that differ decide between integers with as many bytes. -/
theorem compareLex_eq_compare_bigEndian {xs ys : List UInt8} (hl : xs.length = ys.length) :
    List.compareLex compare xs ys = compare (bigEndian xs) (bigEndian ys) := by
  induction xs generalizing ys with
  | nil =>
    rw [List.eq_nil_of_length_eq_zero hl.symm]
    rfl
  | cons x xs ih =>
    cases ys with
    | nil => cases hl
    | cons y ys =>
      have hrest : xs.length = ys.length := Nat.succ.inj hl
      have hy : bigEndian ys < 256 ^ xs.length := hrest ▸ bigEndian_lt ys
      rw [List.compareLex_cons_cons, ih hrest, bigEndian_cons, bigEndian_cons, ← hrest,
        UInt256.compare_append_digit (bigEndian_lt xs) hy, compare_byte]

end Bytes

namespace UInt256

theorem compare_eq_compareLex_words (x y : UInt256) :
    compare x y = List.compareLex compare [x.w3, x.w2, x.w1, x.w0] [y.w3, y.w2, y.w1, y.w0] := by
  simp only [List.compareLex_cons_cons, List.compareLex_nil_nil, Ordering.then_eq]
  rfl

theorem lt_iff_compare {x y : UInt256} : x < y ↔ compare x y = .lt := by
  rw [compare_eq_compare_toNat, Nat.compare_eq_lt, lt_iff_toNat_lt]

theorem le_iff_compare {x y : UInt256} : x ≤ y ↔ compare x y ≠ .gt := by
  rw [compare_eq_compare_toNat, Nat.compare_ne_gt, le_iff_toNat_le]

end UInt256

namespace Felt

open Bytes

theorem bigEndian_toBytesBE (a : Felt) : bigEndian a.toBytesBE = a.toNat := by
  rw [bigEndian, toBytesBE_eq_reverse, List.reverse_reverse, littleEndian_toBytesLE]

theorem compareLex_toBytesBE (a b : Felt) :
    List.compareLex compare a.toBytesBE b.toBytesBE = compare a b := by
  have hl : a.toBytesBE.length = b.toBytesBE.length := by rw [length_toBytesBE, length_toBytesBE]
  rw [compareLex_eq_compare_bigEndian hl, bigEndian_toBytesBE, bigEndian_toBytesBE,
    compare_eq_compare_toNat]

/-- The stored words are equal exactly when neither canonical value is the greater. -/
theorem compare_eq_eq_iff {a b : Felt} : compare a b = .eq ↔ a.mont = b.mont := by
  rw [compare_eq_compare_toNat, Nat.compare_eq_eq, toNat_inj, mont_inj]

theorem swap_compare (a b : Felt) : (compare a b).swap = compare b a := by
  rw [compare_eq_compare_toNat, compare_eq_compare_toNat, Nat.compare_swap]

/-- Nothing lies between an element other than zero and the one below it. -/
theorem le_sub_one_iff {a b : Felt} (ha : a ≠ 0) : b ≤ a - 1 ↔ b < a := by
  have hpos : a.toNat ≠ 0 := fun h => ha (toNat_inj.1 (h.trans toNat_zero.symm))
  have hsub := toNat_sub a 1
  have hlt := a.toNat_lt
  rw [toNat_one] at hsub
  change b.toNat ≤ (a - 1).toNat ↔ b.toNat < a.toNat
  simp only [prime] at hsub hlt
  omega

/-- Comparing words from the top one down is the order of the integers. On elements it is that of
the canonical values and of the bytes, it is total, and it answers that two elements are equal
exactly when their stored words are. -/
theorem canonical_order :
    (∀ x y : UInt256,
      compare x y = List.compareLex compare [x.w3, x.w2, x.w1, x.w0] [y.w3, y.w2, y.w1, y.w0] ∧
      compare x y = compare x.toNat y.toNat ∧
      (x < y ↔ compare x y = .lt) ∧ (x ≤ y ↔ compare x y ≠ .gt)) ∧
    (∀ a b : Felt,
      compare a b = compare a.toNat b.toNat ∧
      compare a b = List.compareLex compare a.toBytesBE b.toBytesBE ∧
      (a < b ↔ compare a b = .lt) ∧ (a ≤ b ↔ compare a b ≠ .gt) ∧
      (compare a b = .eq ↔ a.mont = b.mont) ∧
      compare b a = (compare a b).swap ∧
      (a ≤ b ∨ b ≤ a) ∧ (a ≤ b → b ≤ a → a = b) ∧ (∀ c, a ≤ b → b ≤ c → a ≤ c)) ∧
    ∀ a b : Felt, a ≠ 0 → (b < a ↔ b ≤ a - 1) := by
  refine ⟨fun x y => ⟨x.compare_eq_compareLex_words y, x.compare_eq_compare_toNat y,
    UInt256.lt_iff_compare, UInt256.le_iff_compare⟩, fun a b => ⟨compare_eq_compare_toNat a b,
    (compareLex_toBytesBE a b).symm, UInt256.lt_iff_compare, UInt256.le_iff_compare,
    compare_eq_eq_iff, (swap_compare a b).symm, Nat.le_total a.toNat b.toNat, ?_, ?_⟩,
    fun a b ha => (le_sub_one_iff ha).symm⟩
  · exact fun hab hba => toNat_inj.1 (Nat.le_antisymm hab hba)
  · exact fun c hab hbc => Nat.le_trans hab hbc

end Felt

end FieldSponge
