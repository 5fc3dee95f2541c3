import FieldSponge.Montgomery.Basic

/-! The Montgomery product `a * b / 2 ^ 256` modulo the prime. Each of four rounds adds `a` times
one word of `b` to an accumulator of five words, then a multiple of the prime that clears the lowest
word, and drops that word. The accumulator stays below `a` plus the prime. -/
namespace FieldSponge
namespace Montgomery

structure Accumulator where
  t0 : UInt64
  t1 : UInt64
  t2 : UInt64
  t3 : UInt64
  t4 : UInt64

/-- An accumulator with room for the carry of an added product. -/
structure WideAccumulator where
  t0 : UInt64
  t1 : UInt64
  t2 : UInt64
  t3 : UInt64
  t4 : UInt64
  t5 : UInt64

namespace Accumulator

def toNat (t : Accumulator) : Nat :=
  t.t0.toNat + UInt64.size * (t.t1.toNat + UInt64.size * (t.t2.toNat + UInt64.size * (t.t3.toNat
    + UInt64.size * t.t4.toNat)))

def zero : Accumulator := ⟨0, 0, 0, 0, 0⟩

@[simp] theorem toNat_zero : zero.toNat = 0 := rfl

end Accumulator

namespace WideAccumulator

def toNat (t : WideAccumulator) : Nat :=
  t.t0.toNat + UInt64.size * (t.t1.toNat + UInt64.size * (t.t2.toNat + UInt64.size * (t.t3.toNat
    + UInt64.size * (t.t4.toNat + UInt64.size * t.t5.toNat))))

@[inline] def factor (t : WideAccumulator) : UInt64 := t.t0 * negInverse

@[inline] def cleared (t : WideAccumulator) : DoubleWord :=
  Word.mulAdd t.t0 t.factor modulus.w0 0

/-- The two highest words after the multiple of the prime has been added. The carry `c` comes from
the word below. -/
@[inline] def top (t : WideAccumulator) (c : UInt64) : DoubleWord :=
  let r := Word.addCarry t.t4 c 0
  ⟨r.low, t.t5 + r.high⟩

/-- Adds the multiple of the prime that clears the lowest word, and drops that word. -/
@[inline] def reduce (t : WideAccumulator) : Accumulator :=
  let r₁ := Word.mulAdd t.t1 t.factor modulus.w1 t.cleared.high
  let r₂ := Word.mulAdd t.t2 t.factor modulus.w2 r₁.high
  let r₃ := Word.mulAdd t.t3 t.factor modulus.w3 r₂.high
  let r₄ := t.top r₃.high
  ⟨r₁.low, r₂.low, r₃.low, r₄.low, r₄.high⟩

theorem low_cleared (t : WideAccumulator) : t.cleared.low = 0 := by
  have h := Word.toNat_mulAdd t.t0 t.factor modulus.w0 0
  have hm : t.factor.toNat = t.t0.toNat * (2 ^ 64 - 1) % 2 ^ 64 := UInt64.toNat_mul _ _
  have hw : modulus.w0.toNat = 1 := rfl
  have hl := t.cleared.low.toNat_lt
  rw [hw, hm, UInt64.toNat_zero] at h
  change t.cleared.toNat = _ at h
  rw [DoubleWord.toNat] at h
  refine UInt64.toNat_inj.1 ?_
  simp only [UInt64.size] at h
  rw [UInt64.toNat_zero]
  omega

/-- The division by `2 ^ 64` that drops a word is exact. -/
theorem toNat_reduce {t : WideAccumulator} (h5 : t.t5.toNat ≤ 1) :
    UInt64.size * t.reduce.toNat = t.toNat + t.factor.toNat * prime := by
  have h₀ := Word.toNat_mulAdd t.t0 t.factor modulus.w0 0
  have hl := congrArg UInt64.toNat t.low_cleared
  have h₁ := Word.toNat_mulAdd t.t1 t.factor modulus.w1 t.cleared.high
  change t.cleared.toNat = _ at h₀
  simp only [reduce, top]
  generalize t.cleared = r₀ at *
  have h₂ := Word.toNat_mulAdd t.t2 t.factor modulus.w2
    (Word.mulAdd t.t1 t.factor modulus.w1 r₀.high).high
  generalize Word.mulAdd t.t1 t.factor modulus.w1 r₀.high = r₁ at *
  have h₃ := Word.toNat_mulAdd t.t3 t.factor modulus.w3
    (Word.mulAdd t.t2 t.factor modulus.w2 r₁.high).high
  generalize Word.mulAdd t.t2 t.factor modulus.w2 r₁.high = r₂ at *
  have h₄ := Word.toNat_addCarry t.t4 (Word.mulAdd t.t3 t.factor modulus.w3 r₂.high).high 0
  generalize Word.mulAdd t.t3 t.factor modulus.w3 r₂.high = r₃ at *
  have ht₄ := t.t4.toNat_lt
  have hr₃ := r₃.high.toNat_lt
  generalize Word.addCarry t.t4 r₃.high 0 = r₄ at *
  have hsum := UInt64.toNat_add t.t5 r₄.high
  have w₀ : modulus.w0.toNat = 1 := rfl
  have w₁ : modulus.w1.toNat = 0 := rfl
  have w₂ : modulus.w2.toNat = 0 := rfl
  have w₃ : modulus.w3.toNat = 2 ^ 59 + 17 := rfl
  simp only [DoubleWord.toNat, UInt64.size, w₀, w₁, w₂, w₃, UInt64.toNat_zero] at h₀ h₁ h₂ h₃ h₄ hl
  simp only [Accumulator.toNat, toNat, UInt64.size, prime]
  omega

end WideAccumulator

namespace Accumulator

@[inline] def addProduct (t : Accumulator) (a : UInt256) (b : UInt64) : WideAccumulator :=
  let r₀ := Word.mulAdd t.t0 a.w0 b 0
  let r₁ := Word.mulAdd t.t1 a.w1 b r₀.high
  let r₂ := Word.mulAdd t.t2 a.w2 b r₁.high
  let r₃ := Word.mulAdd t.t3 a.w3 b r₂.high
  let r₄ := Word.addCarry t.t4 r₃.high 0
  ⟨r₀.low, r₁.low, r₂.low, r₃.low, r₄.low, r₄.high⟩

theorem toNat_addProduct (t : Accumulator) (a : UInt256) (b : UInt64) :
    (t.addProduct a b).toNat = t.toNat + a.toNat * b.toNat := by
  have h₀ := Word.toNat_mulAdd t.t0 a.w0 b 0
  have h₁ := Word.toNat_mulAdd t.t1 a.w1 b (Word.mulAdd t.t0 a.w0 b 0).high
  simp only [addProduct]
  generalize Word.mulAdd t.t0 a.w0 b 0 = r₀ at *
  have h₂ := Word.toNat_mulAdd t.t2 a.w2 b (Word.mulAdd t.t1 a.w1 b r₀.high).high
  generalize Word.mulAdd t.t1 a.w1 b r₀.high = r₁ at *
  have h₃ := Word.toNat_mulAdd t.t3 a.w3 b (Word.mulAdd t.t2 a.w2 b r₁.high).high
  generalize Word.mulAdd t.t2 a.w2 b r₁.high = r₂ at *
  have h₄ := Word.toNat_addCarry t.t4 (Word.mulAdd t.t3 a.w3 b r₂.high).high 0
  generalize Word.mulAdd t.t3 a.w3 b r₂.high = r₃ at *
  generalize Word.addCarry t.t4 r₃.high 0 = r₄ at *
  have hab : a.toNat * b.toNat = a.w0.toNat * b.toNat + UInt64.size * (a.w1.toNat * b.toNat
      + UInt64.size * (a.w2.toNat * b.toNat + UInt64.size * (a.w3.toNat * b.toNat))) := by
    simp only [UInt256.toNat, Nat.add_mul, Nat.mul_assoc]
  simp only [DoubleWord.toNat, UInt64.size, UInt64.toNat_zero] at h₀ h₁ h₂ h₃ h₄
  rw [hab]
  simp only [WideAccumulator.toNat, toNat, UInt64.size]
  omega

@[inline] def round (t : Accumulator) (a : UInt256) (b : UInt64) : Accumulator :=
  (t.addProduct a b).reduce

/-- The bound under which a round neither overflows nor leaves it. -/
def Bounded (t : Accumulator) (a : UInt256) : Prop := t.toNat < a.toNat + prime

theorem bounded_zero (a : UInt256) : zero.Bounded a :=
  Nat.lt_of_lt_of_le (by decide) (Nat.le_add_left prime a.toNat)

theorem t5_addProduct_le {t : Accumulator} {a : UInt256} (h : t.Bounded a) (b : UInt64) :
    (t.addProduct a b).t5.toNat ≤ 1 := by
  have hp := toNat_addProduct t a b
  have ha := a.toNat_lt
  have hab : a.toNat * b.toNat ≤ (UInt256.size - 1) * (UInt64.size - 1) :=
    Nat.mul_le_mul (Nat.le_sub_one_of_lt ha) (Nat.le_sub_one_of_lt b.toNat_lt)
  simp only [Bounded, UInt256.size, UInt64.size, prime, WideAccumulator.toNat] at *
  omega

theorem toNat_round {t : Accumulator} {a : UInt256} (h : t.Bounded a) (b : UInt64) :
    UInt64.size * (t.round a b).toNat
      = t.toNat + a.toNat * b.toNat + (t.addProduct a b).factor.toNat * prime := by
  rw [round, WideAccumulator.toNat_reduce (t5_addProduct_le h b), toNat_addProduct]

theorem bounded_round {t : Accumulator} {a : UInt256} (h : t.Bounded a) (b : UInt64) :
    (t.round a b).Bounded a := by
  have hr := toNat_round h b
  have hab : a.toNat * b.toNat ≤ a.toNat * (UInt64.size - 1) :=
    Nat.mul_le_mul_left _ (Nat.le_sub_one_of_lt b.toNat_lt)
  have hmp : (t.addProduct a b).factor.toNat * prime ≤ (UInt64.size - 1) * prime :=
    Nat.mul_le_mul_right _ (Nat.le_sub_one_of_lt (UInt64.toNat_lt _))
  simp only [Bounded, UInt64.size, prime] at *
  omega

@[inline] def product (a b : UInt256) : Accumulator :=
  (((zero.round a b.w0).round a b.w1).round a b.w2).round a b.w3

/-- Up to a multiple of the prime below `2 ^ 256` times it, four rounds divide `a * b` by
`2 ^ 256`. -/
theorem toNat_product (a b : UInt256) :
    ∃ k < UInt256.size, UInt256.size * (product a b).toNat = a.toNat * b.toNat + k * prime := by
  have b₀ := bounded_zero a
  have b₁ := bounded_round b₀ b.w0
  have b₂ := bounded_round b₁ b.w1
  have b₃ := bounded_round b₂ b.w2
  have h₀ := toNat_round b₀ b.w0
  have h₁ := toNat_round b₁ b.w1
  have h₂ := toNat_round b₂ b.w2
  have h₃ := toNat_round b₃ b.w3
  rw [toNat_zero] at h₀
  have m₀ := (zero.addProduct a b.w0).factor.toNat_lt
  have m₁ := ((zero.round a b.w0).addProduct a b.w1).factor.toNat_lt
  have m₂ := (((zero.round a b.w0).round a b.w1).addProduct a b.w2).factor.toNat_lt
  have m₃ := ((((zero.round a b.w0).round a b.w1).round a b.w2).addProduct a b.w3).factor.toNat_lt
  simp only [product]
  generalize (zero.addProduct a b.w0).factor.toNat = k₀ at *
  generalize ((zero.round a b.w0).addProduct a b.w1).factor.toNat = k₁ at *
  generalize (((zero.round a b.w0).round a b.w1).addProduct a b.w2).factor.toNat = k₂ at *
  generalize ((((zero.round a b.w0).round a b.w1).round a b.w2).addProduct a b.w3).factor.toNat
    = k₃ at *
  refine ⟨k₀ + UInt64.size * (k₁ + UInt64.size * (k₂ + UInt64.size * k₃)), by
    simp only [UInt64.size, UInt256.size]
    omega, ?_⟩
  have hab : a.toNat * b.toNat = a.toNat * b.w0.toNat + UInt64.size * (a.toNat * b.w1.toNat
      + UInt64.size * (a.toNat * b.w2.toNat + UInt64.size * (a.toNat * b.w3.toNat))) := by
    simp only [UInt256.toNat, Nat.mul_add, Nat.mul_left_comm]
  rw [hab]
  simp only [Nat.add_mul, Nat.mul_assoc, UInt64.size, UInt256.size] at *
  omega

@[inline] def toResidue (t : Accumulator) : UInt256 :=
  reduceOnce ⟨t.t0, t.t1, t.t2, t.t3⟩ (t.t4 != 0)

theorem toNat_toResidue {t : Accumulator} (h : t.toNat < 2 * prime) :
    t.toResidue.toNat = t.toNat % prime := by
  have e : (⟨t.t0, t.t1, t.t2, t.t3⟩ : UInt256).toNat + UInt256.size * (t.t4 != 0).toNat
      = t.toNat := by
    have h4 : t.t4.toNat ≤ 1 := by
      simp only [prime, toNat, UInt64.size] at h
      omega
    rw [← UInt256.toNat_of_le_one h4]
    simp only [UInt256.toNat, toNat, UInt64.size, UInt256.size]
    omega
  rw [toResidue, toNat_reduceOnce (by omega), e]

end Accumulator

def mul (a b : UInt256) : UInt256 := (Accumulator.product a b).toResidue

theorem product_lt {a b : UInt256} (hb : b.toNat < prime) :
    (Accumulator.product a b).toNat < 2 * prime := by
  obtain ⟨k, hk, h⟩ := Accumulator.toNat_product a b
  have ha : a.toNat * b.toNat ≤ UInt256.size * (prime - 1) :=
    Nat.mul_le_mul (Nat.le_of_lt a.toNat_lt) (by omega)
  have hkp : k * prime ≤ (UInt256.size - 1) * prime := Nat.mul_le_mul_right _ (by omega)
  simp only [UInt256.size, prime] at *
  omega

theorem toNat_mul {a b : UInt256} (hb : b.toNat < prime) :
    (mul a b).toNat = (Accumulator.product a b).toNat % prime :=
  Accumulator.toNat_toResidue (product_lt hb)

theorem toNat_mul_lt {a b : UInt256} (hb : b.toNat < prime) : (mul a b).toNat < prime := by
  rw [toNat_mul hb]
  exact Nat.mod_lt _ (by decide)

/-- The product is `a * b / 2 ^ 256` modulo the prime, also when `a` is not reduced. -/
theorem toNat_mul_mod {a b : UInt256} (hb : b.toNat < prime) :
    (mul a b).toNat * UInt256.size % prime = a.toNat * b.toNat % prime := by
  obtain ⟨k, -, h⟩ := Accumulator.toNat_product a b
  rw [toNat_mul hb, Nat.mod_mul_mod, Nat.mul_comm, h, Nat.add_mul_mod_self_right]

theorem toNat_mul_eq {a b : UInt256} (hb : b.toNat < prime) :
    (mul a b).toNat = a.toNat * b.toNat * radixInverse % prime := by
  rw [← Nat.mod_mul_mod, ← toNat_mul_mod hb, Nat.mod_mul_mod, mul_size_mul_radixInverse,
    Nat.mod_eq_of_lt (toNat_mul_lt hb)]

/-- `x * 2 ^ 256` modulo the prime. -/
def ofCanonical (x : UInt256) : UInt256 := mul x radixSquared

/-- `x / 2 ^ 256` modulo the prime. -/
def toCanonical (x : UInt256) : UInt256 := mul x 1

theorem toNat_ofCanonical (x : UInt256) :
    (ofCanonical x).toNat = x.toNat * UInt256.size % prime := by
  rw [ofCanonical, toNat_mul_eq (by decide), toNat_radixSquared, ← Nat.mod_mul_mod,
    Nat.mul_mod_mod, Nat.mod_mul_mod, ← Nat.mul_assoc, mul_size_mul_radixInverse]

theorem toNat_toCanonical (x : UInt256) :
    (toCanonical x).toNat = x.toNat * radixInverse % prime := by
  rw [toCanonical, toNat_mul_eq (by decide), UInt256.toNat_one, Nat.mul_one]

theorem toNat_toCanonical_ofCanonical (x : UInt256) :
    (toCanonical (ofCanonical x)).toNat = x.toNat % prime := by
  rw [toNat_toCanonical, toNat_ofCanonical, Nat.mod_mul_mod, mul_size_mul_radixInverse]

theorem toNat_ofCanonical_toCanonical (x : UInt256) :
    (ofCanonical (toCanonical x)).toNat = x.toNat % prime := by
  rw [toNat_ofCanonical, toNat_toCanonical, Nat.mod_mul_mod, Nat.mul_right_comm,
    mul_size_mul_radixInverse]

theorem toNat_ofCanonical_lt (x : UInt256) : (ofCanonical x).toNat < prime :=
  toNat_mul_lt (by decide)

theorem toNat_toCanonical_lt (x : UInt256) : (toCanonical x).toNat < prime :=
  toNat_mul_lt (by decide)

attribute [irreducible] mul

end Montgomery

end FieldSponge
