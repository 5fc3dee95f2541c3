import FieldSponge.Felt.Convert
import Mathlib.Data.Nat.Digits.Lemmas
import Mathlib.Tactic.NormNum

/-! Bytes as digits. The bytes of an element are the 32 digits of its canonical value in base 256,
and any 32 bytes are read as the integer of which they are the digits, modulo the prime. What is
read and written again is therefore the same bytes when that integer is below the prime, and the
digits of its remainder when it is not. -/
namespace FieldSponge

namespace Bytes

def littleEndian (bytes : List UInt8) : ℕ := Nat.ofDigits 256 (bytes.map UInt8.toNat)

/-- The integer of bytes, the most significant first. -/
def bigEndian (bytes : List UInt8) : ℕ := littleEndian bytes.reverse

@[simp] theorem littleEndian_nil : littleEndian [] = 0 := rfl

@[simp] theorem littleEndian_cons (b : UInt8) (bytes : List UInt8) :
    littleEndian (b :: bytes) = b.toNat + 256 * littleEndian bytes := Nat.ofDigits_cons

theorem littleEndian_append (xs ys : List UInt8) :
    littleEndian (xs ++ ys) = littleEndian xs + 256 ^ xs.length * littleEndian ys := by
  rw [littleEndian, List.map_append, Nat.ofDigits_append, List.length_map, littleEndian,
    littleEndian]

theorem digitsAppend_littleEndian (bytes : List UInt8) :
    Nat.digitsAppend 256 bytes.length (littleEndian bytes) = bytes.map UInt8.toNat := by
  apply (Nat.setInvOn_digitsAppend_ofDigits (by decide) bytes.length).1
  refine ⟨List.length_map _, fun d hd => ?_⟩
  obtain ⟨b, -, rfl⟩ := List.mem_map.1 hd
  exact b.toNat_lt

/-- Bytes are told from as many other bytes by their integer. -/
theorem littleEndian_inj {xs ys : List UInt8} (hl : xs.length = ys.length) :
    littleEndian xs = littleEndian ys ↔ xs = ys := by
  refine ⟨fun h => ?_, fun h => h ▸ rfl⟩
  have hd := digitsAppend_littleEndian xs
  rw [h, hl, digitsAppend_littleEndian] at hd
  exact List.map_injective_iff.2 (fun _ _ => UInt8.toNat_inj.1) hd.symm

/-- Bytes in pieces of one length are digits in a greater base. -/
theorem littleEndian_flatten {k : ℕ} {pieces : List (List UInt8)}
    (h : ∀ piece ∈ pieces, piece.length = k) :
    littleEndian pieces.flatten = Nat.ofDigits (256 ^ k) (pieces.map littleEndian) := by
  induction pieces with
  | nil => rfl
  | cons piece pieces ih =>
    have hrest := ih fun p hp => h p (List.mem_cons_of_mem piece hp)
    rw [List.flatten_cons, littleEndian_append, h piece List.mem_cons_self, hrest, List.map_cons,
      Nat.ofDigits_cons]

end Bytes

open Bytes

theorem eight_mul_add_lt (i : Fin 4) (j : Fin 8) : 8 * i.val + j.val < 32 := by omega

theorem toList_eq_flatten (v : Vector UInt8 32) : v.toList =
    (List.ofFn fun i => List.ofFn fun j => v.get ⟨_, eight_mul_add_lt i j⟩).flatten := by
  have hv : List.ofFn (fun i : Fin 32 => v[i.val]) = v.toList := by
    rw [← Vector.toList_ofFn, Vector.ofFn_getElem]
  rw [← hv]
  exact List.ofFn_mul' (m := 8) (n := 4) fun i => v[i.val]

theorem Word.toNat_ofBytes_eq (f : Fin 8 → UInt8) :
    (ofBytes f).toNat = littleEndian (List.ofFn f) := by
  rw [toNat_ofBytes]
  simp [List.ofFn_succ]

namespace UInt256

theorem toNat_ofWords (f : Fin 4 → UInt64) :
    (ofWords f).toNat = Nat.ofDigits UInt64.size (List.ofFn fun i => (f i).toNat) := by
  simp [ofWords, toNat, List.ofFn_succ, Nat.ofDigits_cons]

theorem toNat_ofBytesLE (v : Vector UInt8 32) : (ofBytesLE v).toNat = littleEndian v.toList := by
  have hpieces : ∀ piece ∈ List.ofFn fun i => List.ofFn fun j => v.get ⟨_, eight_mul_add_lt i j⟩,
      piece.length = 8 := by
    intro piece h
    obtain ⟨i, rfl⟩ := List.mem_ofFn.1 h
    exact List.length_ofFn
  have hword : (littleEndian ∘ fun i => List.ofFn fun j => v.get ⟨_, eight_mul_add_lt i j⟩) =
      fun i => (Word.ofBytes fun j => v[8 * i.val + j.val]).toNat :=
    funext fun i => (Word.toNat_ofBytes_eq _).symm
  have hsize : 256 ^ 8 = UInt64.size := by norm_num
  rw [toList_eq_flatten, littleEndian_flatten hpieces, List.map_ofFn, hword, hsize, ofBytesLE,
    toNat_ofWords]

end UInt256

namespace Felt

@[simp] theorem littleEndian_toBytesLE (a : Felt) : littleEndian a.toBytesLE = a.toNat := by
  rw [toBytesLE, ← UInt256.toNat_ofBytesLE, UInt256.ofBytesLE_toBytesLE, toNat_toUInt256]

/-- The bytes of an element are the 32 digits of its canonical value. -/
theorem map_toNat_toBytesLE (a : Felt) :
    a.toBytesLE.map UInt8.toNat = Nat.digitsAppend 256 32 a.toNat := by
  rw [← digitsAppend_littleEndian, length_toBytesLE, littleEndian_toBytesLE, byteLength]

theorem ofBytesLE_toList (v : Vector UInt8 32) :
    ofBytesLE v.toList = .ok (ofUInt256 (.ofBytesLE v)) := by
  rw [ofBytesLE, exactBytes_toList, Except.map]

theorem ofBytesBE_toList (v : Vector UInt8 32) :
    ofBytesBE v.toList = .ok (ofUInt256 (.ofBytesBE v)) := by
  rw [ofBytesBE, exactBytes_toList, Except.map]

theorem ofBytesLE_of_length_ne {bytes : List UInt8} (h : bytes.length ≠ 32) :
    ofBytesLE bytes = .error (.length 32 bytes.length) := by
  rw [ofBytesLE, exactBytes_of_length_ne h, Except.map, byteLength]

theorem ofBytesBE_of_length_ne {bytes : List UInt8} (h : bytes.length ≠ 32) :
    ofBytesBE bytes = .error (.length 32 bytes.length) := by
  rw [ofBytesBE, exactBytes_of_length_ne h, Except.map, byteLength]

theorem exists_toList_eq {bytes : List UInt8} (h : bytes.length = 32) :
    ∃ v : Vector UInt8 32, v.toList = bytes :=
  ⟨⟨bytes.toArray, by simpa using h⟩, List.toList_toArray⟩

theorem ofBytesBE_eq_ofBytesLE_reverse (bytes : List UInt8) :
    ofBytesBE bytes = ofBytesLE bytes.reverse := by
  by_cases h : bytes.length = 32
  · obtain ⟨v, rfl⟩ := exists_toList_eq h
    rw [ofBytesBE_toList, ← Vector.toList_reverse, ofBytesLE_toList, UInt256.ofBytesBE]
  · have hr : bytes.reverse.length ≠ 32 := by rwa [List.length_reverse]
    rw [ofBytesBE_of_length_ne h, ofBytesLE_of_length_ne hr, List.length_reverse]

theorem exists_ofBytesLE {bytes : List UInt8} (h : bytes.length = 32) :
    ∃ a : Felt, ofBytesLE bytes = .ok a ∧ a.toNat = littleEndian bytes % prime := by
  obtain ⟨v, rfl⟩ := exists_toList_eq h
  refine ⟨ofUInt256 (.ofBytesLE v), ofBytesLE_toList v, ?_⟩
  rw [toNat_ofUInt256, UInt256.toNat_ofBytesLE]

/-- Other bytes are written than were read exactly when their integer is not below the prime. -/
theorem toBytesLE_eq_iff {bytes : List UInt8} {a : Felt} (h : bytes.length = 32)
    (ha : a.toNat = littleEndian bytes % prime) :
    a.toBytesLE = bytes ↔ littleEndian bytes < prime := by
  have hl : a.toBytesLE.length = bytes.length := by rw [h, length_toBytesLE, byteLength]
  rw [← littleEndian_inj hl, littleEndian_toBytesLE, ha]
  constructor
  · intro hmod
    rw [← hmod]
    exact Nat.mod_lt _ (by decide)
  · exact Nat.mod_eq_of_lt

def rewrite (read : List UInt8 → Except Error Felt) (write : Felt → List UInt8)
    (bytes : List UInt8) : Except Error (List UInt8) := (read bytes).map write

/-- To read and write once more changes nothing. -/
theorem rewrite_bind_rewrite {read : List UInt8 → Except Error Felt} {write : Felt → List UInt8}
    (h : ∀ a, read (write a) = .ok a) (bytes : List UInt8) :
    (rewrite read write bytes).bind (rewrite read write) = rewrite read write bytes := by
  rw [rewrite]
  cases read bytes with
  | error e => rfl
  | ok a => rw [Except.map, Except.bind, rewrite, h, Except.map]

/-- An element is read back from its bytes in either order, and one order is the reverse of the
other. Bytes are refused with their number unless there are 32. Any 32 bytes are read as their
integer modulo the prime; they are written again when that integer is below the prime, and the
digits of its remainder are otherwise. -/
theorem bytes_roundTrip :
    (∀ a : Felt, ofBytesLE a.toBytesLE = .ok a ∧ ofBytesBE a.toBytesBE = .ok a ∧
      a.toBytesBE = a.toBytesLE.reverse) ∧
    (∀ bytes : List UInt8, bytes.length ≠ 32 →
      ofBytesLE bytes = .error (.length 32 bytes.length) ∧
      ofBytesBE bytes = .error (.length 32 bytes.length)) ∧
    (∀ bytes : List UInt8, ofBytesBE bytes = ofBytesLE bytes.reverse) ∧
    (∀ bytes : List UInt8, bytes.length = 32 →
      (∃ a : Felt, ofBytesLE bytes = .ok a ∧ a.toNat = littleEndian bytes % prime ∧
        (a.toBytesLE = bytes ↔ littleEndian bytes < prime) ∧
        a.toBytesLE.map UInt8.toNat = Nat.digitsAppend 256 32 (littleEndian bytes % prime)) ∧
      ∃ a : Felt, ofBytesBE bytes = .ok a ∧ a.toNat = bigEndian bytes % prime ∧
        (a.toBytesBE = bytes ↔ bigEndian bytes < prime) ∧
        a.toBytesBE.map UInt8.toNat =
          (Nat.digitsAppend 256 32 (bigEndian bytes % prime)).reverse) ∧
    ∀ bytes : List UInt8,
      (rewrite ofBytesLE toBytesLE bytes).bind (rewrite ofBytesLE toBytesLE) =
        rewrite ofBytesLE toBytesLE bytes ∧
      (rewrite ofBytesBE toBytesBE bytes).bind (rewrite ofBytesBE toBytesBE) =
        rewrite ofBytesBE toBytesBE bytes := by
  refine ⟨fun a => ⟨ofBytesLE_toBytesLE a, ofBytesBE_toBytesBE a, toBytesBE_eq_reverse a⟩,
    fun bytes h => ⟨ofBytesLE_of_length_ne h, ofBytesBE_of_length_ne h⟩,
    ofBytesBE_eq_ofBytesLE_reverse, fun bytes h => ⟨?_, ?_⟩,
    fun bytes => ⟨rewrite_bind_rewrite ofBytesLE_toBytesLE bytes,
      rewrite_bind_rewrite ofBytesBE_toBytesBE bytes⟩⟩
  · obtain ⟨a, hok, ha⟩ := exists_ofBytesLE h
    refine ⟨a, hok, ha, toBytesLE_eq_iff h ha, ?_⟩
    rw [map_toNat_toBytesLE, ha]
  · have hr : bytes.reverse.length = 32 := by rwa [List.length_reverse]
    obtain ⟨a, hok, ha⟩ := exists_ofBytesLE hr
    refine ⟨a, ?_, ha, ?_, ?_⟩
    · rw [ofBytesBE_eq_ofBytesLE_reverse, hok]
    · rw [toBytesBE_eq_reverse, List.reverse_eq_iff]
      exact toBytesLE_eq_iff hr ha
    · rw [toBytesBE_eq_reverse, List.map_reverse, map_toNat_toBytesLE, ha]
      rfl

end Felt

end FieldSponge
