import FieldSponge.Felt.Basic

/-! Field arithmetic: ring operations, powers by repeated squaring, inverses by Fermat's little
theorem, and the two divisions, in the field and of canonical values. Division by zero is an error.
Bitwise operations and shifts act on canonical values, and their results are taken modulo the
prime. -/
namespace FieldSponge
namespace Felt

instance : Add Felt :=
  ⟨fun a b => ⟨Montgomery.add a.mont b.mont, by
    rw [Montgomery.toNat_add a.mont_lt b.mont_lt]
    exact Nat.mod_lt _ (by decide)⟩⟩

instance : Sub Felt :=
  ⟨fun a b => ⟨Montgomery.sub a.mont b.mont, by
    rw [Montgomery.toNat_sub a.mont_lt b.mont_lt]
    exact Nat.mod_lt _ (by decide)⟩⟩

instance : Neg Felt :=
  ⟨fun a => ⟨Montgomery.neg a.mont, by
    rw [Montgomery.toNat_neg a.mont_lt]
    exact Nat.mod_lt _ (by decide)⟩⟩

instance : Mul Felt :=
  ⟨fun a b => ⟨Montgomery.mul a.mont b.mont, Montgomery.toNat_mul_lt b.mont_lt⟩⟩

@[simp] theorem toNat_add (a b : Felt) : (a + b).toNat = (a.toNat + b.toNat) % prime := by
  rw [toNat_eq, toNat_eq a, toNat_eq b, ← Nat.add_mod, ← Nat.add_mul]
  change (Montgomery.add a.mont b.mont).toNat * _ % prime = _
  rw [Montgomery.toNat_add a.mont_lt b.mont_lt, Nat.mod_mul_mod]

@[simp] theorem toNat_mul (a b : Felt) : (a * b).toNat = a.toNat * b.toNat % prime := by
  rw [toNat_eq, toNat_eq a, toNat_eq b, ← Nat.mul_mod]
  change (Montgomery.mul a.mont b.mont).toNat * _ % prime = _
  rw [Montgomery.toNat_mul_eq b.mont_lt, Nat.mod_mul_mod]
  grind

theorem add_sub_cancel_toNat (a b : Felt) : ((a - b).toNat + b.toNat) % prime = a.toNat := by
  rw [toNat_eq, toNat_eq a, toNat_eq b, ← Nat.add_mod, ← Nat.add_mul]
  change ((Montgomery.sub a.mont b.mont).toNat + b.mont.toNat) * _ % prime = _
  rw [Montgomery.toNat_sub a.mont_lt b.mont_lt, ← Nat.mod_mul_mod, Nat.mod_add_mod]
  have hb := b.mont_lt
  rw [show a.mont.toNat + (prime - b.mont.toNat) + b.mont.toNat = a.mont.toNat + prime by omega,
    Nat.add_mod_right, Nat.mod_mul_mod]

@[simp] theorem toNat_sub (a b : Felt) :
    (a - b).toNat = (a.toNat + (prime - b.toNat)) % prime := by
  have h := add_sub_cancel_toNat a b
  have hs := (a - b).toNat_lt
  have ha := a.toNat_lt
  have hb := b.toNat_lt
  simp only [prime] at *
  omega

@[simp] theorem toNat_neg (a : Felt) : (-a).toNat = (prime - a.toNat) % prime := by
  have h : ((-a).toNat + a.toNat) % prime = 0 := by
    rw [toNat_eq, toNat_eq a, ← Nat.add_mod, ← Nat.add_mul]
    change ((Montgomery.neg a.mont).toNat + a.mont.toNat) * _ % prime = _
    have ha := a.mont_lt
    rw [Montgomery.toNat_neg a.mont_lt, ← Nat.mod_mul_mod, Nat.mod_add_mod,
      show prime - a.mont.toNat + a.mont.toNat = prime by omega, Nat.mod_self, Nat.zero_mul,
      Nat.zero_mod]
  have hs := (-a).toNat_lt
  have ha := a.toNat_lt
  simp only [prime] at *
  omega

def square (a : Felt) : Felt := a * a

@[simp] theorem toNat_square (a : Felt) : a.square.toNat = a.toNat * a.toNat % prime :=
  toNat_mul a a

def double (a : Felt) : Felt := a + a

@[simp] theorem toNat_double (a : Felt) : a.double.toNat = (a.toNat + a.toNat) % prime :=
  toNat_add a a

def sum (xs : List Felt) : Felt := xs.foldl (· + ·) 0

def product (xs : List Felt) : Felt := xs.foldl (· * ·) 1

/-- Continues a power with the lowest `count` bits of `e`, the highest of them first. -/
def powBits (a : Felt) (e : UInt256) : Nat → Felt → Felt
  | 0, power => power
  | i + 1, power =>
    powBits a e i (if e.bit i then power.square * a else power.square)

/-- The power `a ^ e`, one for `e = 0` whatever `a` is. -/
def pow (a : Felt) (e : UInt256) : Felt := powBits a e e.bitLength 1

instance : HPow Felt UInt256 Felt := ⟨pow⟩

def powWord (a : Felt) (e : UInt64) : Felt := a ^ UInt256.ofWord e

def powFelt (a b : Felt) : Felt := a ^ b.toUInt256

def inverseExponent : UInt256 := ⟨0xffffffffffffffff, 0xffffffffffffffff, 0xffffffffffffffff,
  0x0800000000000010⟩

theorem toNat_inverseExponent : inverseExponent.toNat = prime - 2 := rfl

def inverse (a : Felt) : Except Error Felt :=
  if a.isZero then .error .divisionByZero else .ok (a ^ inverseExponent)

/-- Field division: the element whose product with `b` is `a`. -/
def div (a b : Felt) : Except Error Felt := b.inverse.map (a * ·)

def ofDivMod? : Option (UInt256 × UInt256) → Except Error (Felt × Felt)
  | none => .error .divisionByZero
  | some (q, r) => .ok (ofUInt256 q, ofUInt256 r)

def divMod (a b : Felt) : Except Error (Felt × Felt) :=
  ofDivMod? (a.toUInt256.divMod? b.toUInt256)

instance : AndOp Felt := ⟨fun a b => ofUInt256 (a.toUInt256 &&& b.toUInt256)⟩

instance : OrOp Felt := ⟨fun a b => ofUInt256 (a.toUInt256 ||| b.toUInt256)⟩

instance : XorOp Felt := ⟨fun a b => ofUInt256 (a.toUInt256 ^^^ b.toUInt256)⟩

/-- The bits that leave 256 at the top are lost before the reduction. -/
instance : HShiftLeft Felt Nat Felt := ⟨fun a n => ofUInt256 (a.toUInt256 <<< n)⟩

instance : HShiftRight Felt Nat Felt := ⟨fun a n => ofUInt256 (a.toUInt256 >>> n)⟩

@[simp] theorem toNat_and (a b : Felt) : (a &&& b).toNat = (a.toNat &&& b.toNat) % prime := by
  change (ofUInt256 _).toNat = _
  rw [toNat_ofUInt256, UInt256.toNat_and, toNat_toUInt256, toNat_toUInt256]

@[simp] theorem toNat_or (a b : Felt) : (a ||| b).toNat = (a.toNat ||| b.toNat) % prime := by
  change (ofUInt256 _).toNat = _
  rw [toNat_ofUInt256, UInt256.toNat_or, toNat_toUInt256, toNat_toUInt256]

@[simp] theorem toNat_xor (a b : Felt) : (a ^^^ b).toNat = (a.toNat ^^^ b.toNat) % prime := by
  change (ofUInt256 _).toNat = _
  rw [toNat_ofUInt256, UInt256.toNat_xor, toNat_toUInt256, toNat_toUInt256]

/-- A canonical value stays below the prime when it is shifted down. -/
theorem toNat_shiftRight (a : Felt) (n : Nat) : (a >>> n).toNat = a.toNat >>> n := by
  change (ofUInt256 _).toNat = _
  rw [toNat_ofUInt256, UInt256.toNat_shiftRight, toNat_toUInt256]
  exact Nat.mod_eq_of_lt (Nat.lt_of_le_of_lt (Nat.shiftRight_le _ _) a.toNat_lt)

def bitLength (a : Felt) : Nat := a.toUInt256.bitLength

end Felt

end FieldSponge
