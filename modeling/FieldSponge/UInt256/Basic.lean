import FieldSponge.Word

/-! Unsigned integers of 256 bits as four words, the least significant first. `toNat` is the number
that the words denote: it determines the words, and comparing words from the top compares
numbers. -/
namespace FieldSponge

structure UInt256 where
  w0 : UInt64
  w1 : UInt64
  w2 : UInt64
  w3 : UInt64
deriving DecidableEq, Repr, Inhabited

namespace UInt256

def wordCount : Nat := 4

def bitWidth : Nat := 256

/-- The number of values, which is two to the bit width. -/
abbrev size : Nat := 0x10000000000000000000000000000000000000000000000000000000000000000

def toNat (a : UInt256) : Nat :=
  a.w0.toNat + UInt64.size * (a.w1.toNat + UInt64.size * (a.w2.toNat + UInt64.size * a.w3.toNat))

theorem toNat_lt (a : UInt256) : a.toNat < size := by
  have h₀ := a.w0.toNat_lt
  have h₁ := a.w1.toNat_lt
  have h₂ := a.w2.toNat_lt
  have h₃ := a.w3.toNat_lt
  simp only [toNat, UInt64.size, size]
  omega

theorem toNat_inj {a b : UInt256} : a.toNat = b.toNat ↔ a = b := by
  refine ⟨fun h => ?_, fun h => h ▸ rfl⟩
  have h₀ := a.w0.toNat_lt
  have h₁ := a.w1.toNat_lt
  have h₂ := a.w2.toNat_lt
  have k₀ := b.w0.toNat_lt
  have k₁ := b.w1.toNat_lt
  have k₂ := b.w2.toNat_lt
  simp only [toNat, UInt64.size] at h
  have e₀ : a.w0 = b.w0 := UInt64.toNat_inj.1 (by omega)
  have e₁ : a.w1 = b.w1 := UInt64.toNat_inj.1 (by omega)
  have e₂ : a.w2 = b.w2 := UInt64.toNat_inj.1 (by omega)
  have e₃ : a.w3 = b.w3 := UInt64.toNat_inj.1 (by omega)
  cases a
  cases b
  simp_all

def ofWord (w : UInt64) : UInt256 := ⟨w, 0, 0, 0⟩

@[simp] theorem toNat_ofWord (w : UInt64) : (ofWord w).toNat = w.toNat := by
  simp [ofWord, toNat]

def ofDoubleWord (d : DoubleWord) : UInt256 := ⟨d.low, d.high, 0, 0⟩

@[simp] theorem toNat_ofDoubleWord (d : DoubleWord) : (ofDoubleWord d).toNat = d.toNat := by
  simp [ofDoubleWord, toNat, DoubleWord.toNat]

instance : Zero UInt256 := ⟨ofWord 0⟩

instance : One UInt256 := ⟨ofWord 1⟩

@[simp] theorem toNat_zero : (0 : UInt256).toNat = 0 := toNat_ofWord 0

@[simp] theorem toNat_one : (1 : UInt256).toNat = 1 := toNat_ofWord 1

def max : UInt256 :=
  ⟨0xffffffffffffffff, 0xffffffffffffffff, 0xffffffffffffffff, 0xffffffffffffffff⟩

@[simp] theorem toNat_max : max.toNat = size - 1 := rfl

/-- The number modulo `2 ^ 256`. -/
def ofNat (n : Nat) : UInt256 :=
  let n₁ := n / UInt64.size
  let n₂ := n₁ / UInt64.size
  ⟨UInt64.ofNat n, UInt64.ofNat n₁, UInt64.ofNat n₂, UInt64.ofNat (n₂ / UInt64.size)⟩

@[simp] theorem toNat_ofNat (n : Nat) : (ofNat n).toNat = n % size := by
  simp only [ofNat, toNat, UInt64.toNat_ofNat', UInt64.size, size]
  omega

@[simp] theorem ofNat_toNat (a : UInt256) : ofNat a.toNat = a :=
  toNat_inj.1 (by rw [toNat_ofNat, Nat.mod_eq_of_lt a.toNat_lt])

/-- The word of weight `2 ^ (64 * i)`. -/
def word (a : UInt256) : Fin 4 → UInt64
  | 0 => a.w0
  | 1 => a.w1
  | 2 => a.w2
  | 3 => a.w3

def ofWords (f : Fin 4 → UInt64) : UInt256 := ⟨f 0, f 1, f 2, f 3⟩

@[simp] theorem word_ofWords (f : Fin 4 → UInt64) (i : Fin 4) : (ofWords f).word i = f i := by
  match i with
  | 0 | 1 | 2 | 3 => rfl

@[simp] theorem ofWords_word (a : UInt256) : ofWords a.word = a := rfl

def isZero (a : UInt256) : Bool := a.w0 == 0 && a.w1 == 0 && a.w2 == 0 && a.w3 == 0

@[simp] theorem isZero_iff {a : UInt256} : a.isZero = true ↔ a = 0 := by
  cases a
  simp [isZero, OfNat.ofNat, Zero.zero, ofWord, and_assoc]

instance : LT UInt256 := ⟨fun a b => a.toNat < b.toNat⟩

instance : LE UInt256 := ⟨fun a b => a.toNat ≤ b.toNat⟩

theorem lt_iff_toNat_lt {a b : UInt256} : a < b ↔ a.toNat < b.toNat := Iff.rfl

theorem le_iff_toNat_le {a b : UInt256} : a ≤ b ↔ a.toNat ≤ b.toNat := Iff.rfl

instance : Ord UInt256 where
  compare a b := (compare a.w3 b.w3).then <| (compare a.w2 b.w2).then <|
    (compare a.w1 b.w1).then <| compare a.w0 b.w0

theorem compare_word (a b : UInt64) : compare a b = compare a.toNat b.toNat := by
  simp only [compare, compareOfLessAndEq, UInt64.lt_iff_toNat_lt, UInt64.toNat_inj]

theorem compare_append_digit {m x y u v : Nat} (hu : u < m) (hv : v < m) :
    compare (u + m * x) (v + m * y) = (compare x y).then (compare u v) := by
  rcases Nat.lt_trichotomy x y with h | h | h
  · have hm : m * (x + 1) ≤ m * y := Nat.mul_le_mul_left m h
    rw [Nat.compare_eq_lt.2 h, Nat.compare_eq_lt.2 (by rw [Nat.mul_add] at hm; omega)]
    rfl
  · subst h
    rw [Nat.compare_eq_eq.2 rfl, Ordering.eq_then]
    rcases Nat.lt_trichotomy u v with k | k | k
    · rw [Nat.compare_eq_lt.2 k, Nat.compare_eq_lt.2 (by omega)]
    · rw [Nat.compare_eq_eq.2 k, Nat.compare_eq_eq.2 (by omega)]
    · rw [Nat.compare_eq_gt.2 k, Nat.compare_eq_gt.2 (by omega)]
  · have hm : m * (y + 1) ≤ m * x := Nat.mul_le_mul_left m h
    rw [Nat.compare_eq_gt.2 h, Nat.compare_eq_gt.2 (by rw [Nat.mul_add] at hm; omega)]
    rfl

theorem compare_eq_compare_toNat (a b : UInt256) : compare a b = compare a.toNat b.toNat := by
  rw [toNat, toNat, compare_append_digit a.w0.toNat_lt b.w0.toNat_lt,
    compare_append_digit a.w1.toNat_lt b.w1.toNat_lt,
    compare_append_digit a.w2.toNat_lt b.w2.toNat_lt]
  simp only [← compare_word, Ordering.then_assoc]
  rfl

instance (a b : UInt256) : Decidable (a < b) :=
  decidable_of_iff (compare a b = .lt) (by rw [compare_eq_compare_toNat, Nat.compare_eq_lt]; rfl)

instance (a b : UInt256) : Decidable (a ≤ b) :=
  decidable_of_iff (compare a b ≠ .gt) (by
    rw [compare_eq_compare_toNat, ne_eq, Nat.compare_eq_gt, Nat.not_lt]
    rfl)

end UInt256

end FieldSponge
