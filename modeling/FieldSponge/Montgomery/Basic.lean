import FieldSponge.UInt256.Carry

/-! The prime `2 ^ 251 + 17 * 2 ^ 192 + 1` and addition, subtraction and negation of residues below
it. One conditional subtraction brings any value below twice the prime back below it. -/
namespace FieldSponge

/-- The order of the field, `2 ^ 251 + 17 * 2 ^ 192 + 1`. -/
def prime : Nat := 0x800000000000011000000000000000000000000000000000000000000000001

namespace Montgomery

def modulus : UInt256 := ⟨1, 0, 0, 0x0800000000000011⟩

@[simp] theorem toNat_modulus : modulus.toNat = prime := rfl

/-- The radix `2 ^ 256` modulo the prime. -/
def radix : UInt256 :=
  ⟨0xffffffffffffffe1, 0xffffffffffffffff, 0xffffffffffffffff, 0x07fffffffffffdf0⟩

theorem toNat_radix : radix.toNat = UInt256.size % prime := rfl

def radixSquared : UInt256 :=
  ⟨0xfffffd737e000401, 0x00000001330fffff, 0xffffffffff6f8000, 0x07ffd4ab5e008810⟩

theorem toNat_radixSquared : radixSquared.toNat = UInt256.size * UInt256.size % prime := rfl

def radixInverse : Nat := 0x40000000000001100000000000012100000000000000000000000000000000

theorem size_mul_radixInverse : UInt256.size * radixInverse % prime = 1 := rfl

theorem mul_size_mul_radixInverse (n : Nat) :
    n * UInt256.size * radixInverse % prime = n % prime := by
  rw [Nat.mul_assoc, Nat.mul_mod, size_mul_radixInverse, Nat.mul_one, Nat.mod_mod]

/-- The negated inverse of the prime modulo `2 ^ 64`. -/
def negInverse : UInt64 := 0xffffffffffffffff

theorem modulus_mul_negInverse : modulus.w0 * negInverse = -1 := by decide

/-- Subtracts the prime once from `value`, to which `overflow` adds `2 ^ 256`, unless it is
below. -/
def reduceOnce (value : UInt256) (overflow : Bool) : UInt256 :=
  if overflow || modulus ≤ value then (value.subBorrow modulus).1 else value

theorem toNat_reduceOnce {value : UInt256} {overflow : Bool}
    (h : value.toNat + UInt256.size * overflow.toNat < 2 * prime) :
    (reduceOnce value overflow).toNat = (value.toNat + UInt256.size * overflow.toNat) % prime := by
  have hv := value.toNat_lt
  have hs := UInt256.toNat_subBorrow value modulus
  have hd := (value.subBorrow modulus).1.toNat_lt
  rw [toNat_modulus] at hs
  cases overflow with
  | true =>
    simp only [UInt256.size, prime, Bool.toNat_true] at h
    omega
  | false =>
    simp only [reduceOnce, Bool.false_or, Bool.toNat_false, Nat.mul_zero, Nat.add_zero,
      decide_eq_true_iff, UInt256.le_iff_toNat_le, toNat_modulus] at h ⊢
    split
    · rename_i hle
      rw [UInt256.snd_subBorrow, decide_eq_false (by
        rw [UInt256.lt_iff_toNat_lt, toNat_modulus]; omega), Bool.toNat_false] at hs
      simp only [UInt256.size, prime] at *
      omega
    · exact (Nat.mod_eq_of_lt (by omega)).symm

def reduce (x : UInt256) : UInt256 :=
  if modulus ≤ x then reduce (x.subBorrow modulus).1 else x
termination_by x.toNat
decreasing_by
  rename_i h
  rw [UInt256.toNat_fst_subBorrow_of_le h, toNat_modulus]
  have hle := UInt256.le_iff_toNat_le.1 h
  rw [toNat_modulus] at hle
  have hp : 0 < prime := by decide
  omega

@[simp] theorem toNat_reduce (x : UInt256) : (reduce x).toNat = x.toNat % prime := by
  induction x using reduce.induct with
  | case1 x h ih =>
    have hle := UInt256.le_iff_toNat_le.1 h
    rw [toNat_modulus] at hle
    rw [reduce, if_pos h, ih, UInt256.toNat_fst_subBorrow_of_le h, toNat_modulus,
      ← Nat.mod_eq_sub_mod hle]
  | case2 x h =>
    rw [UInt256.le_iff_toNat_le, toNat_modulus, Nat.not_le] at h
    rw [reduce, if_neg (by rw [UInt256.le_iff_toNat_le, toNat_modulus]; omega),
      Nat.mod_eq_of_lt h]

def add (a b : UInt256) : UInt256 :=
  let s := a.addCarry b
  reduceOnce s.1 s.2

def sub (a b : UInt256) : UInt256 :=
  let d := a.subBorrow b
  if d.2 then (d.1.addCarry modulus).1 else d.1

def neg (a : UInt256) : UInt256 := if a.isZero then 0 else (modulus.subBorrow a).1

theorem toNat_add {a b : UInt256} (ha : a.toNat < prime) (hb : b.toNat < prime) :
    (add a b).toNat = (a.toNat + b.toNat) % prime := by
  have h := UInt256.toNat_addCarry a b
  rw [add, toNat_reduceOnce (by omega), h]

theorem toNat_sub {a b : UInt256} (ha : a.toNat < prime) (hb : b.toNat < prime) :
    (sub a b).toNat = (a.toNat + (prime - b.toNat)) % prime := by
  have h := UInt256.toNat_subBorrow a b
  have ht := UInt256.toNat_fst_addCarry (a.subBorrow b).1 modulus
  have hd := (a.subBorrow b).1.toNat_lt
  rw [toNat_modulus] at ht
  simp only [sub]
  cases e : (a.subBorrow b).2 <;>
    simp only [e, Bool.toNat_false, Bool.toNat_true, if_true, Bool.false_eq_true, if_false]
      at h ⊢ <;>
    simp only [UInt256.size, prime] at * <;> omega

theorem toNat_neg {a : UInt256} (ha : a.toNat < prime) :
    (neg a).toNat = (prime - a.toNat) % prime := by
  simp only [neg, UInt256.isZero_iff]
  split
  · rename_i h
    rw [h]
    rfl
  · rename_i h
    have hz : a.toNat ≠ 0 := fun g => h (UInt256.toNat_inj.1 g)
    rw [UInt256.toNat_fst_subBorrow_of_le (by
      rw [UInt256.le_iff_toNat_le, toNat_modulus]; omega), toNat_modulus]
    exact (Nat.mod_eq_of_lt (by omega)).symm

end Montgomery

end FieldSponge
