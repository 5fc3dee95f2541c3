/-! Arithmetic on 64-bit words with the part that leaves the word kept. Sums, differences and
products of words come back as a low and a high word, and each law says that nothing is lost. -/
namespace FieldSponge

/-- A number of up to 128 bits as two words. -/
structure DoubleWord where
  low : UInt64
  high : UInt64
deriving DecidableEq, Repr

namespace DoubleWord

def toNat (d : DoubleWord) : Nat := d.low.toNat + UInt64.size * d.high.toNat

end DoubleWord

namespace Word

@[inline] def lowHalf (a : UInt64) : UInt64 := a &&& 0xffffffff

@[inline] def highHalf (a : UInt64) : UInt64 := a >>> 32

@[simp] theorem toNat_lowHalf (a : UInt64) : (lowHalf a).toNat = a.toNat % UInt32.size := by
  have : (0xffffffff : UInt64).toNat = 2 ^ 32 - 1 := rfl
  simp only [lowHalf, UInt64.toNat_and, this, Nat.and_two_pow_sub_one_eq_mod]

@[simp] theorem toNat_highHalf (a : UInt64) : (highHalf a).toNat = a.toNat / UInt32.size := by
  simp [highHalf, Nat.shiftRight_eq_div_pow]

/-- `a + b + c`. The carry `c` is a whole word, so the high word is at most two. -/
@[inline] def addCarry (a b c : UInt64) : DoubleWord :=
  let s := a + b
  let t := s + c
  ⟨t, (if s < a then 1 else 0) + (if t < s then 1 else 0)⟩

theorem toNat_add_overflow (a b : UInt64) :
    (a + b).toNat + UInt64.size * (if a + b < a then 1 else 0 : UInt64).toNat
      = a.toNat + b.toNat := by
  have ha := a.toNat_lt
  have hb := b.toNat_lt
  have h : (a + b).toNat = (a.toNat + b.toNat) % 2 ^ 64 := UInt64.toNat_add a b
  by_cases hlt : a + b < a
  · have hl := UInt64.lt_iff_toNat_lt.1 hlt
    simp only [UInt64.size, hlt, if_true, UInt64.toNat_one]
    omega
  · have hl : ¬ (a + b).toNat < a.toNat := fun g => hlt (UInt64.lt_iff_toNat_lt.2 g)
    simp only [UInt64.size, hlt, if_false, UInt64.toNat_zero]
    omega

@[simp] theorem toNat_addCarry (a b c : UInt64) :
    (addCarry a b c).toNat = a.toNat + b.toNat + c.toNat := by
  have h₁ := toNat_add_overflow a b
  have h₂ := toNat_add_overflow (a + b) c
  have hle : ∀ p : Prop, [Decidable p] → (if p then 1 else 0 : UInt64).toNat ≤ 1 := by
    intro p _
    split <;> decide
  have k₁ := hle (a + b < a)
  have k₂ := hle (a + b + c < a + b)
  simp only [addCarry, DoubleWord.toNat, UInt64.size,
    UInt64.toNat_add _ (if a + b + c < a + b then 1 else 0)] at *
  omega

/-- `a - b - c` with the borrow that it leaves, for a borrow `c` of zero or one. -/
@[inline] def subBorrow (a b c : UInt64) : DoubleWord :=
  ⟨a - b - c, (if a < b then 1 else 0) ||| (if a - b < c then 1 else 0)⟩

theorem toNat_subBorrow (a b c : UInt64) (hc : c.toNat ≤ 1) :
    (subBorrow a b c).low.toNat + b.toNat + c.toNat
      = a.toNat + UInt64.size * (subBorrow a b c).high.toNat ∧
        (subBorrow a b c).high.toNat ≤ 1 := by
  have ha := a.toNat_lt
  have hb := b.toNat_lt
  have hd : (a - b).toNat = (2 ^ 64 - b.toNat + a.toNat) % 2 ^ 64 := UInt64.toNat_sub a b
  have he : (a - b - c).toNat = (2 ^ 64 - c.toNat + (a - b).toNat) % 2 ^ 64 :=
    UInt64.toNat_sub (a - b) c
  have h₁ : a < b ↔ a.toNat < b.toNat := UInt64.lt_iff_toNat_lt
  have h₂ : a - b < c ↔ (a - b).toNat < c.toNat := UInt64.lt_iff_toNat_lt
  simp only [UInt64.size]
  by_cases p : a < b <;> by_cases q : a - b < c <;> simp only [subBorrow, p, q, if_true, if_false]
    <;> simp only [h₁, h₂] at p q <;> simp <;> omega

/-- The whole product of two words, by the school method on halves. -/
@[inline] def mul (a b : UInt64) : DoubleWord :=
  let low := lowHalf a * lowHalf b
  let cross := lowHalf a * highHalf b + highHalf low
  let middle := highHalf a * lowHalf b + lowHalf cross
  ⟨a * b, highHalf a * highHalf b + highHalf cross + highHalf middle⟩

theorem mul_le_of_half {x y : Nat} (hx : x < UInt32.size) (hy : y < UInt32.size) :
    x * y ≤ (UInt32.size - 1) * (UInt32.size - 1) :=
  Nat.mul_le_mul (Nat.le_sub_one_of_lt hx) (Nat.le_sub_one_of_lt hy)

@[simp] theorem toNat_mul (a b : UInt64) : (mul a b).toNat = a.toNat * b.toNat := by
  have ha := a.toNat_lt
  have hb := b.toNat_lt
  simp only [mul, DoubleWord.toNat, UInt64.toNat_add, UInt64.toNat_mul, toNat_lowHalf,
    toNat_highHalf]
  generalize a.toNat = A at *
  generalize b.toNat = B at *
  have h₀₀ := mul_le_of_half (x := A % UInt32.size) (y := B % UInt32.size)
    (Nat.mod_lt _ (by decide)) (Nat.mod_lt _ (by decide))
  have h₀₁ := mul_le_of_half (x := A % UInt32.size) (y := B / UInt32.size)
    (Nat.mod_lt _ (by decide)) (Nat.div_lt_of_lt_mul hb)
  have h₁₀ := mul_le_of_half (x := A / UInt32.size) (y := B % UInt32.size)
    (Nat.div_lt_of_lt_mul ha) (Nat.mod_lt _ (by decide))
  have h₁₁ := mul_le_of_half (x := A / UInt32.size) (y := B / UInt32.size)
    (Nat.div_lt_of_lt_mul ha) (Nat.div_lt_of_lt_mul hb)
  have hAB : A * B = A % UInt32.size * (B % UInt32.size)
      + UInt32.size * (A % UInt32.size * (B / UInt32.size) + A / UInt32.size * (B % UInt32.size))
      + UInt32.size * UInt32.size * (A / UInt32.size * (B / UInt32.size)) := by
    conv => lhs; rw [← Nat.mod_add_div A UInt32.size, ← Nat.mod_add_div B UInt32.size]
    grind
  rw [hAB]
  generalize A % UInt32.size * (B % UInt32.size) = x at *
  generalize A % UInt32.size * (B / UInt32.size) = y at *
  generalize A / UInt32.size * (B % UInt32.size) = z at *
  generalize A / UInt32.size * (B / UInt32.size) = w at *
  clear hAB ha hb
  simp only [UInt32.size, UInt64.size] at *
  omega

/-- `t + a * b + c`, which fits in two words whatever the four words are. -/
@[inline] def mulAdd (t a b c : UInt64) : DoubleWord :=
  let product := mul a b
  let s := product.low + t
  let r := s + c
  ⟨r, product.high + (if s < product.low then 1 else 0) + (if r < s then 1 else 0)⟩

@[simp] theorem toNat_mulAdd (t a b c : UInt64) :
    (mulAdd t a b c).toNat = t.toNat + a.toNat * b.toNat + c.toNat := by
  have hm := toNat_mul a b
  have h₁ := toNat_add_overflow (mul a b).low t
  have h₂ := toNat_add_overflow ((mul a b).low + t) c
  have hab : a.toNat * b.toNat ≤ (UInt64.size - 1) * (UInt64.size - 1) :=
    Nat.mul_le_mul (Nat.le_sub_one_of_lt a.toNat_lt) (Nat.le_sub_one_of_lt b.toNat_lt)
  have ht := t.toNat_lt
  have hc := c.toNat_lt
  have k₁ := UInt64.toNat_add (mul a b).high (if (mul a b).low + t < (mul a b).low then 1 else 0)
  have k₂ := UInt64.toNat_add
    ((mul a b).high + if (mul a b).low + t < (mul a b).low then 1 else 0)
    (if (mul a b).low + t + c < (mul a b).low + t then 1 else 0)
  simp only [mulAdd, DoubleWord.toNat, UInt64.size] at *
  omega

end Word

end FieldSponge
