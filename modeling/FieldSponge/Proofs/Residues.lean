import FieldSponge.Felt.Arithmetic
import Mathlib.Algebra.BigOperators.Group.List.Basic
import Mathlib.Data.ZMod.Basic
import Mathlib.Tactic.Ring

/-! Field elements as residues. `toZMod` is the residue of the canonical value. It is a bijection
and carries every operation on stored words to that of the integers modulo the prime, so the
elements form that ring. -/
namespace FieldSponge

instance : NeZero prime := ⟨by decide⟩

namespace Felt

def toZMod (a : Felt) : ZMod prime := (a.toNat : ZMod prime)

@[simp] theorem val_toZMod (a : Felt) : a.toZMod.val = a.toNat :=
  (ZMod.val_natCast prime a.toNat).trans (Nat.mod_eq_of_lt a.toNat_lt)

theorem toZMod_inj {a b : Felt} : a.toZMod = b.toZMod ↔ a = b := by
  refine ⟨fun h => toNat_inj.1 ?_, fun h => h ▸ rfl⟩
  rw [← val_toZMod a, h, val_toZMod]

/-- An equation between canonical values modulo the prime is one between residues. -/
theorem toZMod_eq_of_toNat_eq {a : Felt} {n : ℕ} (h : a.toNat = n % prime) :
    a.toZMod = (n : ZMod prime) := by
  rw [toZMod, h, ZMod.natCast_mod]

def ofZMod (x : ZMod prime) : Felt := ofUInt256 (.ofNat x.val)

@[simp] theorem toZMod_ofZMod (x : ZMod prime) : (ofZMod x).toZMod = x := by
  have hx : x.val < prime := ZMod.val_lt x
  apply ZMod.val_injective
  rw [val_toZMod, ofZMod, toNat_ofUInt256, UInt256.toNat_ofNat,
    Nat.mod_eq_of_lt (Nat.lt_trans hx (by decide)), Nat.mod_eq_of_lt hx]

@[simp] theorem ofZMod_toZMod (a : Felt) : ofZMod a.toZMod = a := toZMod_inj.1 (toZMod_ofZMod _)

@[simp] theorem toZMod_zero : (0 : Felt).toZMod = 0 := by
  rw [toZMod, toNat_zero, Nat.cast_zero]

@[simp] theorem toZMod_one : (1 : Felt).toZMod = 1 := by
  rw [toZMod, toNat_one, Nat.cast_one]

theorem toZMod_eq_one_iff {a : Felt} : a.toZMod = 1 ↔ a = 1 := by
  rw [← toZMod_one, toZMod_inj]

theorem toZMod_eq_zero_iff {a : Felt} : a.toZMod = 0 ↔ a = 0 := by
  rw [← toZMod_zero, toZMod_inj]

@[simp] theorem toZMod_ofWord (w : UInt64) : (ofWord w).toZMod = w.toNat := by
  rw [toZMod, toNat_ofWord]

@[simp] theorem toZMod_add (a b : Felt) : (a + b).toZMod = a.toZMod + b.toZMod := by
  rw [toZMod_eq_of_toNat_eq (toNat_add a b), Nat.cast_add, toZMod, toZMod]

@[simp] theorem toZMod_mul (a b : Felt) : (a * b).toZMod = a.toZMod * b.toZMod := by
  rw [toZMod_eq_of_toNat_eq (toNat_mul a b), Nat.cast_mul, toZMod, toZMod]

@[simp] theorem toZMod_sub (a b : Felt) : (a - b).toZMod = a.toZMod - b.toZMod := by
  have h : (a - b).toZMod + b.toZMod = a.toZMod := by
    rw [toZMod, toZMod, ← Nat.cast_add, ← ZMod.natCast_mod, add_sub_cancel_toNat, toZMod]
  exact eq_sub_of_add_eq h

@[simp] theorem toZMod_neg (a : Felt) : (-a).toZMod = -a.toZMod := by
  rw [toZMod_eq_of_toNat_eq (toNat_neg a), Nat.cast_sub (Nat.le_of_lt a.toNat_lt),
    ZMod.natCast_self, zero_sub, toZMod]

@[simp] theorem toZMod_square (a : Felt) : a.square.toZMod = a.toZMod ^ 2 := by
  rw [square, toZMod_mul, sq]

@[simp] theorem toZMod_double (a : Felt) : a.double.toZMod = 2 * a.toZMod := by
  rw [double, toZMod_add, two_mul]

theorem toNat_eq_mod {a : Felt} {n : ℕ} (h : a.toZMod = (n : ZMod prime)) :
    a.toNat = n % prime := by
  rw [← ZMod.val_natCast, ← h, val_toZMod]

/-- The canonical value of an element is the least nonnegative integer of its residue. -/
theorem toNat_eq_emod {a : Felt} {z : ℤ} (h : a.toZMod = (z : ZMod prime)) :
    (a.toNat : ℤ) = z % prime := by
  rw [← ZMod.val_intCast, ← h, val_toZMod]

theorem toNat_foldl_add (xs : List Felt) (s : Felt) :
    (xs.foldl (· + ·) s).toNat = (s.toNat + (xs.map toNat).sum) % prime := by
  induction xs generalizing s with
  | nil => simp [Nat.mod_eq_of_lt s.toNat_lt]
  | cons x xs ih =>
    rw [List.foldl_cons, ih, toNat_add, Nat.mod_add_mod, List.map_cons, List.sum_cons,
      Nat.add_assoc]

theorem toNat_foldl_mul (xs : List Felt) (s : Felt) :
    (xs.foldl (· * ·) s).toNat = s.toNat * (xs.map toNat).prod % prime := by
  induction xs generalizing s with
  | nil => simp [Nat.mod_eq_of_lt s.toNat_lt]
  | cons x xs ih =>
    rw [List.foldl_cons, ih, toNat_mul, Nat.mod_mul_mod, List.map_cons, List.prod_cons,
      Nat.mul_assoc]

@[simp] theorem toNat_sum (xs : List Felt) : (sum xs).toNat = (xs.map toNat).sum % prime := by
  rw [sum, toNat_foldl_add, toNat_zero, Nat.zero_add]

@[simp] theorem toNat_product (xs : List Felt) :
    (product xs).toNat = (xs.map toNat).prod % prime := by
  rw [product, toNat_foldl_mul, toNat_one, Nat.one_mul]

theorem sum_eq_of_perm {xs ys : List Felt} (h : xs.Perm ys) : sum xs = sum ys := by
  rw [← toNat_inj, toNat_sum, toNat_sum, (h.map toNat).sum_eq]

theorem product_eq_of_perm {xs ys : List Felt} (h : xs.Perm ys) : product xs = product ys := by
  rw [← toNat_inj, toNat_product, toNat_product, (h.map toNat).prod_eq]

/-- The ring of field elements is that of the integers modulo the prime. -/
def residueEquiv : Felt ≃+* ZMod prime where
  toFun := toZMod
  invFun := ofZMod
  left_inv := ofZMod_toZMod
  right_inv := toZMod_ofZMod
  map_mul' := toZMod_mul
  map_add' := toZMod_add

/-- The canonical value turns field arithmetic into integer arithmetic modulo the prime, and is a
ring isomorphism onto the integers modulo the prime. -/
theorem toNat_arithmetic :
    prime = 2 ^ 251 + 17 * 2 ^ 192 + 1 ∧
    (∀ a b : Felt,
      (a + b).toNat = (a.toNat + b.toNat) % prime ∧
      ((a - b).toNat : ℤ) = ((a.toNat : ℤ) - b.toNat) % prime ∧
      (a * b).toNat = a.toNat * b.toNat % prime ∧
      ((-a).toNat : ℤ) = -(a.toNat : ℤ) % prime ∧
      a.square.toNat = a.toNat ^ 2 % prime ∧
      a.double.toNat = 2 * a.toNat % prime) ∧
    (∀ xs : List Felt,
      (sum xs).toNat = (xs.map toNat).sum % prime ∧
      (product xs).toNat = (xs.map toNat).prod % prime ∧
      ∀ ys : List Felt, xs.Perm ys → sum xs = sum ys ∧ product xs = product ys) ∧
    ∃ e : Felt ≃+* ZMod prime, ∀ a, (e a).val = a.toNat := by
  refine ⟨by norm_num [prime], fun a b => ?_, fun xs => ?_, residueEquiv, val_toZMod⟩
  · have hs : (a - b).toZMod = ((a.toNat - b.toNat : ℤ) : ZMod prime) := by
      rw [toZMod_sub, toZMod, toZMod]
      push_cast
      rfl
    have hn : (-a).toZMod = ((-a.toNat : ℤ) : ZMod prime) := by
      rw [toZMod_neg, toZMod]
      push_cast
      rfl
    refine ⟨toNat_add a b, toNat_eq_emod hs, toNat_mul a b, toNat_eq_emod hn, ?_, ?_⟩
    · rw [toNat_square, sq]
    · rw [toNat_double, two_mul]
  · exact ⟨toNat_sum xs, toNat_product xs, fun ys h => ⟨sum_eq_of_perm h, product_eq_of_perm h⟩⟩

end Felt

end FieldSponge
