import FieldSponge.UInt256.Basic

/-! The 32 bytes of a 256-bit integer, least or most significant first. Reading and writing are
inverse to each other in either order. -/
namespace FieldSponge

namespace Word

/-- Byte `i` of the word, counted from the least significant. -/
def byte (w : UInt64) (i : Fin 8) : UInt8 := (w >>> UInt64.ofNat (8 * i.val)).toUInt8

/-- The word with the given bytes. -/
def ofBytes (f : Fin 8 → UInt8) : UInt64 := Fin.foldr 8 (fun i w => (f i).toUInt64 + 256 * w) 0

theorem toNat_byte (w : UInt64) (i : Fin 8) :
    (byte w i).toNat = w.toNat >>> (8 * i.val) % 256 := by
  have h : (UInt64.ofNat (8 * i.val)).toNat % 64 = 8 * i.val := by
    rw [UInt64.toNat_ofNat', Nat.mod_eq_of_lt (by omega : 8 * i.val < 2 ^ 64)]
    omega
  rw [byte, UInt64.toNat_toUInt8, UInt64.toNat_shiftRight, h]

theorem toNat_ofBytes (f : Fin 8 → UInt8) : (ofBytes f).toNat =
    (f 0).toNat + 256 * ((f 1).toNat + 256 * ((f 2).toNat + 256 * ((f 3).toNat
      + 256 * ((f 4).toNat + 256 * ((f 5).toNat + 256 * ((f 6).toNat + 256 * (f 7).toNat)))))) := by
  have h : ∀ i, (f i).toNat < 256 := fun i => (f i).toNat_lt
  have h₀ := h 0
  have h₁ := h 1
  have h₂ := h 2
  have h₃ := h 3
  have h₄ := h 4
  have h₅ := h 5
  have h₆ := h 6
  have h₇ := h 7
  change ((f 0).toUInt64 + 256 * ((f 1).toUInt64 + 256 * ((f 2).toUInt64 + 256 * ((f 3).toUInt64
    + 256 * ((f 4).toUInt64 + 256 * ((f 5).toUInt64 + 256 * ((f 6).toUInt64
      + 256 * ((f 7).toUInt64 + 256 * 0)))))))).toNat = _
  have e : (256 : UInt64).toNat = 256 := rfl
  simp only [UInt64.toNat_add, UInt64.toNat_mul, UInt8.toNat_toUInt64, Nat.mul_mod_mod,
    Nat.add_mod_mod, UInt64.toNat_zero, e, Nat.mul_zero, Nat.add_zero]
  exact Nat.mod_eq_of_lt (by omega)

@[simp] theorem byte_ofBytes (f : Fin 8 → UInt8) (i : Fin 8) : byte (ofBytes f) i = f i := by
  have h : ∀ i, (f i).toNat < 256 := fun i => (f i).toNat_lt
  have h₀ := h 0
  have h₁ := h 1
  have h₂ := h 2
  have h₃ := h 3
  have h₄ := h 4
  have h₅ := h 5
  have h₆ := h 6
  have h₇ := h 7
  refine UInt8.toNat_inj.1 ?_
  rw [toNat_byte, toNat_ofBytes, Nat.shiftRight_eq_div_pow]
  match i with
  | 0 => change _ / 0x1 % 256 = (f 0).toNat; omega
  | 1 => change _ / 0x100 % 256 = (f 1).toNat; omega
  | 2 => change _ / 0x10000 % 256 = (f 2).toNat; omega
  | 3 => change _ / 0x1000000 % 256 = (f 3).toNat; omega
  | 4 => change _ / 0x100000000 % 256 = (f 4).toNat; omega
  | 5 => change _ / 0x10000000000 % 256 = (f 5).toNat; omega
  | 6 => change _ / 0x1000000000000 % 256 = (f 6).toNat; omega
  | 7 => change _ / 0x100000000000000 % 256 = (f 7).toNat; omega

@[simp] theorem ofBytes_byte (w : UInt64) : ofBytes (byte w) = w := by
  have h := w.toNat_lt
  refine UInt64.toNat_inj.1 ?_
  rw [toNat_ofBytes]
  simp only [toNat_byte, Nat.shiftRight_eq_div_pow]
  change w.toNat / 0x1 % 256 + 256 * (w.toNat / 0x100 % 256 + 256 * (w.toNat / 0x10000 % 256
    + 256 * (w.toNat / 0x1000000 % 256 + 256 * (w.toNat / 0x100000000 % 256
      + 256 * (w.toNat / 0x10000000000 % 256 + 256 * (w.toNat / 0x1000000000000 % 256
        + 256 * (w.toNat / 0x100000000000000 % 256))))))) = w.toNat
  omega

end Word

namespace UInt256

def toBytesLE (a : UInt256) : Vector UInt8 32 :=
  Vector.ofFn fun i => Word.byte (a.word ⟨i.val / 8, by omega⟩) ⟨i.val % 8, by omega⟩

def toBytesBE (a : UInt256) : Vector UInt8 32 := a.toBytesLE.reverse

def ofBytesLE (bytes : Vector UInt8 32) : UInt256 :=
  ofWords fun i => Word.ofBytes fun j => bytes[8 * i.val + j.val]

def ofBytesBE (bytes : Vector UInt8 32) : UInt256 := ofBytesLE bytes.reverse

@[simp] theorem toBytesLE_ofBytesLE (bytes : Vector UInt8 32) :
    (ofBytesLE bytes).toBytesLE = bytes := by
  refine Vector.ext fun i hi => ?_
  rw [toBytesLE, Vector.getElem_ofFn, ofBytesLE, word_ofWords, Word.byte_ofBytes]
  congr 1
  simp only
  omega

@[simp] theorem ofBytesLE_toBytesLE (a : UInt256) : ofBytesLE a.toBytesLE = a := by
  refine Eq.trans ?_ (ofWords_word a)
  refine congrArg ofWords (funext fun i => ?_)
  refine Eq.trans (congrArg Word.ofBytes (funext fun j => ?_)) (Word.ofBytes_byte (a.word i))
  rw [toBytesLE, Vector.getElem_ofFn]
  have hi : (8 * i.val + j.val) / 8 = i.val := by omega
  have hj : (8 * i.val + j.val) % 8 = j.val := by omega
  simp only [hi, hj]

@[simp] theorem toBytesBE_ofBytesBE (bytes : Vector UInt8 32) :
    (ofBytesBE bytes).toBytesBE = bytes := by
  rw [toBytesBE, ofBytesBE, toBytesLE_ofBytesLE, Vector.reverse_reverse]

@[simp] theorem ofBytesBE_toBytesBE (a : UInt256) : ofBytesBE a.toBytesBE = a := by
  rw [toBytesBE, ofBytesBE, Vector.reverse_reverse, ofBytesLE_toBytesLE]

end UInt256

end FieldSponge
