import FieldSponge.Felt.Convert
import Mathlib.Tactic.NormNum

/-! Machine integers through the field. Every machine integer is its own canonical value, so it is
one element whatever its width is. An element is narrowed to a word exactly when its canonical value
fits, and to that value, so sums and products that fit come back as those of the integers. -/
namespace FieldSponge

/-- The integers of up to 128 bits are those of two words. -/
theorem DoubleWord.exists_toNat_eq {n : ℕ} (h : n < 2 ^ 128) : ∃ d : DoubleWord, d.toNat = n := by
  refine ⟨⟨UInt64.ofNat n, UInt64.ofNat (n / UInt64.size)⟩, ?_⟩
  simp only [DoubleWord.toNat, UInt64.toNat_ofNat', UInt64.size]
  omega

/-- An integer of one of the widths that are taken into the field. -/
inductive MachineInteger where
  | byte (n : UInt8)
  | halfWord (n : UInt32)
  | word (n : UInt64)
  | doubleWord (n : DoubleWord)

namespace MachineInteger

def toNat : MachineInteger → ℕ
  | byte n => n.toNat
  | halfWord n => n.toNat
  | word n => n.toNat
  | doubleWord n => n.toNat

def toFelt : MachineInteger → Felt
  | byte n => .ofUInt8 n
  | halfWord n => .ofUInt32 n
  | word n => .ofWord n
  | doubleWord n => .ofDoubleWord n

@[simp] theorem toNat_toFelt (v : MachineInteger) : v.toFelt.toNat = v.toNat := by
  cases v <;> simp [toFelt, toNat]

theorem toFelt_eq_iff {v w : MachineInteger} : v.toFelt = w.toFelt ↔ v.toNat = w.toNat := by
  rw [← Felt.toNat_inj, toNat_toFelt, toNat_toFelt]

end MachineInteger

namespace UInt256

theorem upper_eq_zero_iff {x : UInt256} :
    (x.w1 = 0 ∧ x.w2 = 0 ∧ x.w3 = 0) ↔ x.toNat < 2 ^ 64 := by
  have h₀ := x.w0.toNat_lt
  rw [← UInt64.toNat_inj, ← UInt64.toNat_inj, ← UInt64.toNat_inj, UInt64.toNat_zero]
  simp only [toNat, UInt64.size]
  omega

theorem toNat_w0_eq {x : UInt256} (h : x.w1 = 0 ∧ x.w2 = 0 ∧ x.w3 = 0) :
    x.w0.toNat = x.toNat := by
  simp [toNat, h]

end UInt256

namespace Felt

/-- What narrowing does: it gives the word of the canonical value when the value fits in the bits,
and says how many bits there are when it does not. -/
structure NarrowsTo {α : Type} (value : α → ℕ) (bits : ℕ) (narrow : Felt → Except Error α) :
    Prop where
  exists_ok : ∀ {a : Felt}, a.toNat < 2 ^ bits → ∃ v, narrow a = .ok v ∧ value v = a.toNat
  eq_error : ∀ {a : Felt}, 2 ^ bits ≤ a.toNat → narrow a = .error (.outOfRange bits)

namespace NarrowsTo

variable {α : Type} {value : α → ℕ} {bits : ℕ} {narrow : Felt → Except Error α}

theorem eq_error_iff (h : NarrowsTo value bits narrow) {a : Felt} :
    narrow a = .error (.outOfRange bits) ↔ 2 ^ bits ≤ a.toNat := by
  refine ⟨fun herror => ?_, h.eq_error⟩
  by_contra hlt
  obtain ⟨v, hok, -⟩ := h.exists_ok (Nat.not_le.1 hlt)
  rw [herror] at hok
  cases hok

theorem exists_ok_iff (h : NarrowsTo value bits narrow) {a : Felt} :
    (∃ v, narrow a = .ok v) ↔ a.toNat < 2 ^ bits := by
  constructor
  · rintro ⟨v, hok⟩
    by_contra hlarge
    rw [h.eq_error (Nat.not_lt.1 hlarge)] at hok
    cases hok
  · intro hfits
    obtain ⟨v, hok, -⟩ := h.exists_ok hfits
    exact ⟨v, hok⟩

theorem eq_ok_iff (h : NarrowsTo value bits narrow) (hinj : Function.Injective value)
    (hlt : ∀ v, value v < 2 ^ bits) {a : Felt} {v : α} :
    narrow a = .ok v ↔ a.toNat = value v := by
  constructor
  · intro hok
    rcases Nat.lt_or_ge a.toNat (2 ^ bits) with hfits | hlarge
    · obtain ⟨w, hw, hvalue⟩ := h.exists_ok hfits
      rw [← hvalue, Except.ok.inj (hok.symm.trans hw)]
    · rw [h.eq_error hlarge] at hok
      cases hok
  · intro ha
    obtain ⟨w, hw, hvalue⟩ := h.exists_ok (ha ▸ hlt v)
    rw [hw, hinj (hvalue.trans ha)]

end NarrowsTo

theorem narrowsTo_toUInt64 : NarrowsTo UInt64.toNat 64 toUInt64 where
  exists_ok {a} h := by
    have hupper := UInt256.upper_eq_zero_iff.2 ((toNat_toUInt256 a).symm ▸ h)
    exact ⟨a.toUInt256.w0, if_pos hupper, UInt256.toNat_w0_eq hupper⟩
  eq_error {a} h := if_neg fun hupper => Nat.not_lt.2 h (UInt256.upper_eq_zero_iff.1 hupper)

theorem narrow?_of_lt {n : UInt64} (h : n.toNat < 2 ^ 32) : narrow? n = some n.toUInt32 :=
  if_pos (UInt64.lt_iff_toNat_lt.2 h)

theorem narrow?_of_le {n : UInt64} (h : 2 ^ 32 ≤ n.toNat) : narrow? n = none :=
  if_neg fun hlt => Nat.not_lt.2 h (UInt64.lt_iff_toNat_lt.1 hlt)

/-- A value that fits in 64 bits and not in 32 is refused as one that fits in neither. -/
theorem narrowsTo_toUInt32 : NarrowsTo UInt32.toNat 32 toUInt32 where
  exists_ok {a} h := by
    obtain ⟨n, hok, hn⟩ := narrowsTo_toUInt64.exists_ok (h.trans (by decide))
    rw [← hn] at h
    refine ⟨n.toUInt32, ?_, ?_⟩
    · rw [toUInt32, hok, Except.toOption, Option.bind_some, narrow?_of_lt h, Option.elim_some]
    · rw [UInt64.toNat_toUInt32, Nat.mod_eq_of_lt h, hn]
  eq_error {a} h := by
    rcases Nat.lt_or_ge a.toNat (2 ^ 64) with hfits | hlarge
    · obtain ⟨n, hok, hn⟩ := narrowsTo_toUInt64.exists_ok hfits
      rw [← hn] at h
      rw [toUInt32, hok, Except.toOption, Option.bind_some, narrow?_of_le h, Option.elim_none]
    · rw [toUInt32, narrowsTo_toUInt64.eq_error hlarge, Except.toOption, Option.bind_none,
        Option.elim_none]

theorem toUInt64_eq_ok_iff {a : Felt} {v : UInt64} : a.toUInt64 = .ok v ↔ a.toNat = v.toNat :=
  narrowsTo_toUInt64.eq_ok_iff (fun _ _ => UInt64.toNat_inj.1) UInt64.toNat_lt

theorem toUInt32_eq_ok_iff {a : Felt} {v : UInt32} : a.toUInt32 = .ok v ↔ a.toNat = v.toNat :=
  narrowsTo_toUInt32.eq_ok_iff (fun _ _ => UInt32.toNat_inj.1) UInt32.toNat_lt

theorem toNat_ofUInt32_add (m n : UInt32) :
    (ofUInt32 m + ofUInt32 n).toNat = m.toNat + n.toNat := by
  have hm := m.toNat_lt
  have hn := n.toNat_lt
  rw [toNat_add, toNat_ofUInt32, toNat_ofUInt32]
  refine Nat.mod_eq_of_lt ?_
  simp only [prime]
  omega

theorem toNat_mul_toNat_lt (m n : UInt32) : m.toNat * n.toNat < 2 ^ 64 :=
  calc
    m.toNat * n.toNat < 2 ^ 32 * 2 ^ 32 := Nat.mul_lt_mul'' m.toNat_lt n.toNat_lt
    _ = 2 ^ 64 := by norm_num

theorem toNat_ofUInt32_mul (m n : UInt32) :
    (ofUInt32 m * ofUInt32 n).toNat = m.toNat * n.toNat := by
  rw [toNat_mul, toNat_ofUInt32, toNat_ofUInt32]
  exact Nat.mod_eq_of_lt ((toNat_mul_toNat_lt m n).trans (by decide))

/-- A machine integer of any width is taken to the element of which it is the canonical value, so
elements are equal exactly when the integers are. An element is narrowed to the word that its
canonical value is, of which it is the element again, and refused with the number of bits exactly
when the value does not fit. The sum and the product of two integers of 32 bits fit in 64. -/
theorem machineIntegers_exact :
    (∀ v w : MachineInteger,
      v.toFelt.toNat = v.toNat ∧ (v.toFelt = w.toFelt ↔ v.toNat = w.toNat)) ∧
    (∀ n < 2 ^ 128, ∃ d : DoubleWord, d.toNat = n) ∧
    (∀ a : Felt,
      (∀ v : UInt64, (a.toUInt64 = .ok v ↔ a.toNat = v.toNat) ∧
        (a.toUInt64 = .ok v → ofWord v = a)) ∧
      ((∃ v, a.toUInt64 = .ok v) ↔ a.toNat < 2 ^ 64) ∧
      (a.toUInt64 = .error (.outOfRange 64) ↔ 2 ^ 64 ≤ a.toNat) ∧
      (∀ v : UInt32, (a.toUInt32 = .ok v ↔ a.toNat = v.toNat) ∧
        (a.toUInt32 = .ok v → ofUInt32 v = a)) ∧
      ((∃ v, a.toUInt32 = .ok v) ↔ a.toNat < 2 ^ 32) ∧
      (a.toUInt32 = .error (.outOfRange 32) ↔ 2 ^ 32 ≤ a.toNat)) ∧
    ∀ m n : UInt32,
      (∃ s : UInt64, (ofUInt32 m + ofUInt32 n).toUInt64 = .ok s ∧
        s.toNat = m.toNat + n.toNat) ∧
      ∃ q : UInt64, (ofUInt32 m * ofUInt32 n).toUInt64 = .ok q ∧ q.toNat = m.toNat * n.toNat := by
  refine ⟨fun v w => ⟨v.toNat_toFelt, MachineInteger.toFelt_eq_iff⟩,
    fun n => DoubleWord.exists_toNat_eq, fun a => ⟨fun v => ⟨toUInt64_eq_ok_iff, fun hok => ?_⟩,
    narrowsTo_toUInt64.exists_ok_iff, narrowsTo_toUInt64.eq_error_iff,
    fun v => ⟨toUInt32_eq_ok_iff, fun hok => ?_⟩, narrowsTo_toUInt32.exists_ok_iff,
    narrowsTo_toUInt32.eq_error_iff⟩, fun m n => ⟨?_, ?_⟩⟩
  · rw [← toNat_inj, toNat_ofWord, toUInt64_eq_ok_iff.1 hok]
  · rw [← toNat_inj, toNat_ofUInt32, toUInt32_eq_ok_iff.1 hok]
  · rw [← toNat_ofUInt32_add]
    refine narrowsTo_toUInt64.exists_ok ?_
    have hm := m.toNat_lt
    have hn := n.toNat_lt
    rw [toNat_ofUInt32_add]
    omega
  · rw [← toNat_ofUInt32_mul]
    refine narrowsTo_toUInt64.exists_ok ?_
    rw [toNat_ofUInt32_mul]
    exact toNat_mul_toNat_lt m n

end Felt

end FieldSponge
