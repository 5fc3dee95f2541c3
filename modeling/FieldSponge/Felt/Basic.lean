import FieldSponge.Montgomery.Product
import FieldSponge.Text.Quoted
import FieldSponge.UInt256.Render

/-! Elements of the field of order `prime`. An element is stored as its canonical value times `2 ^
256` modulo the prime, below the prime, so equal elements have equal words. Order, text, bytes and
bits are those of the canonical value. An operation without a result has one of a few reasons. -/
namespace FieldSponge

structure Felt where
  mont : UInt256
  mont_lt : mont.toNat < prime
deriving DecidableEq

namespace Felt

/-- The element of any 256-bit integer, taken modulo the prime. -/
def ofUInt256 (x : UInt256) : Felt := ⟨Montgomery.ofCanonical x, Montgomery.toNat_ofCanonical_lt x⟩

/-- The canonical value. -/
def toUInt256 (a : Felt) : UInt256 := Montgomery.toCanonical a.mont

def toNat (a : Felt) : Nat := a.toUInt256.toNat

theorem toNat_lt (a : Felt) : a.toNat < prime := Montgomery.toNat_toCanonical_lt a.mont

theorem toNat_eq (a : Felt) : a.toNat = a.mont.toNat * Montgomery.radixInverse % prime :=
  Montgomery.toNat_toCanonical a.mont

@[simp] theorem toNat_toUInt256 (a : Felt) : a.toUInt256.toNat = a.toNat := rfl

theorem mont_inj {a b : Felt} : a.mont = b.mont ↔ a = b := by
  refine ⟨fun h => ?_, fun h => h ▸ rfl⟩
  cases a
  cases b
  cases h
  rfl

@[simp] theorem toNat_ofUInt256 (x : UInt256) : (ofUInt256 x).toNat = x.toNat % prime :=
  Montgomery.toNat_toCanonical_ofCanonical x

@[simp] theorem ofUInt256_toUInt256 (a : Felt) : ofUInt256 a.toUInt256 = a := by
  refine mont_inj.1 (UInt256.toNat_inj.1 ?_)
  exact (Montgomery.toNat_ofCanonical_toCanonical a.mont).trans (Nat.mod_eq_of_lt a.mont_lt)

theorem toUInt256_inj {a b : Felt} : a.toUInt256 = b.toUInt256 ↔ a = b := by
  refine ⟨fun h => ?_, fun h => h ▸ rfl⟩
  rw [← ofUInt256_toUInt256 a, h, ofUInt256_toUInt256]

theorem toNat_inj {a b : Felt} : a.toNat = b.toNat ↔ a = b :=
  UInt256.toNat_inj.trans toUInt256_inj

def ofWord (w : UInt64) : Felt := ofUInt256 (.ofWord w)

def ofDoubleWord (d : DoubleWord) : Felt := ofUInt256 (.ofDoubleWord d)

/-- The element stored as `x`, taken modulo the prime. -/
def ofMontgomery (x : UInt256) : Felt :=
  ⟨Montgomery.reduce x, by
    rw [Montgomery.toNat_reduce]
    exact Nat.mod_lt _ (by decide)⟩

instance : Zero Felt := ⟨⟨0, by decide⟩⟩

instance : One Felt := ⟨⟨Montgomery.radix, by decide⟩⟩

def two : Felt :=
  ⟨⟨0xffffffffffffffc1, 0xffffffffffffffff, 0xffffffffffffffff, 0x07fffffffffffbd0⟩, by decide⟩

/-- The element of the greatest canonical value, minus one. -/
def max : Felt := ⟨⟨0x20, 0, 0, 0x220⟩, by decide⟩

def bitWidth : Nat := 252

/-- The greatest `k` such that `2 ^ k` divides `prime - 1`. -/
def twoAdicity : Nat := 192

instance : Inhabited Felt := ⟨0⟩

@[simp] theorem toNat_zero : (0 : Felt).toNat = 0 := by
  rw [toNat_eq]
  rfl

@[simp] theorem toNat_one : (1 : Felt).toNat = 1 := by
  rw [toNat_eq]
  rfl

@[simp] theorem toNat_two : two.toNat = 2 := by
  rw [toNat_eq]
  rfl

@[simp] theorem toNat_max : max.toNat = prime - 1 := by
  rw [toNat_eq]
  rfl

@[simp] theorem toNat_ofWord (w : UInt64) : (ofWord w).toNat = w.toNat := by
  rw [ofWord, toNat_ofUInt256, UInt256.toNat_ofWord]
  exact Nat.mod_eq_of_lt (Nat.lt_trans w.toNat_lt (by decide))

@[simp] theorem toNat_ofDoubleWord (d : DoubleWord) : (ofDoubleWord d).toNat = d.toNat := by
  have hl := d.low.toNat_lt
  have hh := d.high.toNat_lt
  rw [ofDoubleWord, toNat_ofUInt256, UInt256.toNat_ofDoubleWord]
  refine Nat.mod_eq_of_lt ?_
  simp only [DoubleWord.toNat, UInt64.size, prime]
  omega

@[simp] theorem toNat_ofMontgomery (x : UInt256) :
    (ofMontgomery x).toNat = x.toNat * Montgomery.radixInverse % prime := by
  rw [toNat_eq]
  change (Montgomery.reduce x).toNat * Montgomery.radixInverse % prime = _
  rw [Montgomery.toNat_reduce, Nat.mod_mul_mod]

def ofBool (b : Bool) : Felt := if b then 1 else 0

def isZero (a : Felt) : Bool := a.mont.isZero

@[simp] theorem isZero_iff {a : Felt} : a.isZero = true ↔ a = 0 :=
  UInt256.isZero_iff.trans (mont_inj (b := 0))

def isOne (a : Felt) : Bool := a == 1

@[simp] theorem isOne_iff {a : Felt} : a.isOne = true ↔ a = 1 := beq_iff_eq

instance : Ord Felt := ⟨fun a b => compare a.toUInt256 b.toUInt256⟩

instance : LT Felt := ⟨fun a b => a.toNat < b.toNat⟩

instance : LE Felt := ⟨fun a b => a.toNat ≤ b.toNat⟩

instance (a b : Felt) : Decidable (a < b) :=
  inferInstanceAs (Decidable (a.toUInt256 < b.toUInt256))

instance (a b : Felt) : Decidable (a ≤ b) :=
  inferInstanceAs (Decidable (a.toUInt256 ≤ b.toUInt256))

theorem compare_eq_compare_toNat (a b : Felt) : compare a b = compare a.toNat b.toNat :=
  UInt256.compare_eq_compare_toNat _ _

instance : Min Felt := minOfLe

instance : Max Felt := maxOfLe

def sort (xs : List Felt) : List Felt := xs.mergeSort fun a b => a ≤ b

/-- What is wrong with the text of an element. The index counts bytes from the start of the text. -/
inductive ParseFault where
  | empty
  | invalidDigit (index : Nat) (found : Char)
deriving DecidableEq, Repr

inductive Error where
  | parse (radix : Radix) (fault : ParseFault)
  | length (expected actual : Nat)
  | divisionByZero
  | outOfRange (bits : Nat)
deriving DecidableEq, Repr

namespace Error

def message : Error → String
  | parse radix .empty => s!"cannot parse a base-{radix.base} field element from an empty string"
  | parse radix (.invalidDigit index found) =>
    s!"invalid base-{radix.base} digit {Text.quoted found} at position {index}"
  | length expected actual => s!"expected {expected} bytes, got {actual}"
  | divisionByZero => "division by zero"
  | outOfRange bits => s!"field element does not fit in {bits} bits"

end Error

end Felt

end FieldSponge
