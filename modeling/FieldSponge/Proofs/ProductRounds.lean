import FieldSponge.Montgomery.Product
import FieldSponge.Proofs.CarryChains
import Mathlib.Data.Nat.ModEq
import Mathlib.Tactic.NormNum
import Mathlib.Tactic.Ring

/-! Rounds of the Montgomery product. Each round is followed through its two loops over words, with
every word looked up by its index, every product and sum worked out in 128 bits, and the one sum
that must fit in a word checked. The accumulator after a round is below `a` plus the prime, and
times the weight of the words of `b` that were used up it is `a` times those words, modulo the
prime. So no sum is too great and, when `b` is below the prime, one subtraction of the prime ends
the product. -/
namespace FieldSponge

namespace Word

def mulSum? (t a b c : UInt64) : Option DoubleWord :=
  DoubleWord.ofNat? (t.toNat + a.toNat * b.toNat + c.toNat)

theorem mulSum?_eq (t a b c : UInt64) : mulSum? t a b c = some (mulAdd t a b c) := by
  rw [mulSum?, ← toNat_mulAdd, DoubleWord.ofNat?_toNat]

theorem mulSum?_eq_some_iff {t a b c : UInt64} {d : DoubleWord} :
    mulSum? t a b c = some d ↔ mulAdd t a b c = d := by
  rw [mulSum?_eq, Option.some.injEq]

theorem mulAdd_comm (t a b c : UInt64) : mulAdd t a b c = mulAdd t b a c := by
  rw [← mulSum?_eq_some_iff, mulSum?, Nat.mul_comm]
  exact mulSum?_eq t b a c

theorem exists_mulSum? (t a b c : UInt64) : ∃ d, mulSum? t a b c = some d :=
  ⟨mulAdd t a b c, mulSum?_eq t a b c⟩

theorem exists_sum?_zero (a b : UInt64) : ∃ d, sum? a b 0 = some d ∧ d.high.toNat ≤ 1 := by
  have h := toNat_addCarry a b 0
  have ha := a.toNat_lt
  have hb := b.toNat_lt
  refine ⟨addCarry a b 0, sum?_eq a b 0, ?_⟩
  simp only [DoubleWord.toNat, UInt64.size, UInt64.toNat_zero] at h
  omega

def add? (a b : UInt64) : Option UInt64 :=
  if a.toNat + b.toNat < 2 ^ 64 then some (a + b) else none

theorem add?_of_lt {a b : UInt64} (h : a.toNat + b.toNat < 2 ^ 64) : add? a b = some (a + b) :=
  if_pos h

end Word

namespace UInt256

theorem toNat_word (b : UInt256) {i : ℕ} (hi : i < 4) :
    (b.word ⟨i, hi⟩).toNat = b.toNat / 2 ^ (64 * i) % 2 ^ 64 := by
  have h₀ := b.w0.toNat_lt
  have h₁ := b.w1.toNat_lt
  have h₂ := b.w2.toNat_lt
  have h₃ := b.w3.toNat_lt
  rw [toNat, UInt64.size]
  obtain rfl | rfl | rfl | rfl : i = 0 ∨ i = 1 ∨ i = 2 ∨ i = 3 := by omega
  · change b.w0.toNat = _
    omega
  · change b.w1.toNat = _
    omega
  · change b.w2.toNat = _
    omega
  · change b.w3.toNat = _
    omega

theorem toNat_mod_succ (b : UInt256) {i : ℕ} (hi : i < 4) : b.toNat % 2 ^ (64 * (i + 1)) =
    b.toNat % 2 ^ (64 * i) + 2 ^ (64 * i) * (b.word ⟨i, hi⟩).toNat := by
  rw [toNat_word, Nat.mul_succ, Nat.pow_add, Nat.mod_mul]

end UInt256

namespace Montgomery

namespace WideAccumulator

def word? (t : WideAccumulator) : ℕ → Option UInt64
  | 0 => some t.t0
  | 1 => some t.t1
  | 2 => some t.t2
  | 3 => some t.t3
  | 4 => some t.t4
  | 5 => some t.t5
  | _ => none

def setWord? (t : WideAccumulator) (w : UInt64) : ℕ → Option WideAccumulator
  | 0 => some { t with t0 := w }
  | 1 => some { t with t1 := w }
  | 2 => some { t with t2 := w }
  | 3 => some { t with t3 := w }
  | 4 => some { t with t4 := w }
  | 5 => some { t with t5 := w }
  | _ => none

def lower (t : WideAccumulator) : Accumulator := ⟨t.t0, t.t1, t.t2, t.t3, t.t4⟩

/-- Adds to the words at the given indexes, all moved up by `shift`, the multiple by `m` of the
words of `x` at the same indexes, and stores the sums without the shift. The carry goes along. -/
def addMultiple? (m : UInt64) (x : UInt256) (shift : ℕ) :
    List ℕ → WideAccumulator → UInt64 → Option (WideAccumulator × UInt64)
  | [], t, carry => some (t, carry)
  | j :: indexes, t, carry => do
    let d ← Word.mulSum? (← t.word? (j + shift)) m (← x.word? (j + shift)) carry
    addMultiple? m x shift indexes (← t.setWord? d.low j) d.high

def gather? (a : UInt256) (w : UInt64) (t : WideAccumulator) : Option WideAccumulator := do
  let s ← addMultiple? w a 0 (List.range 4) t 0
  let d ← Word.sum? s.1.t4 s.2 0
  return { s.1 with t4 := d.low, t5 := d.high }

/-- What adding a multiple of the prime leaves: the lowest word, which is dropped, the carry that is
added to the highest word, and the words after that. -/
structure Cleared where
  dropped : UInt64
  carry : UInt64
  words : WideAccumulator

/-- Adds the multiple of the prime that clears the lowest word, and moves the other words down. -/
def clear? (t : WideAccumulator) : Option Cleared := do
  let d ← Word.mulSum? t.t0 t.factor modulus.w0 0
  let s ← addMultiple? t.factor modulus 1 (List.range 3) t d.high
  let e ← Word.sum? s.1.t4 s.2 0
  return ⟨d.low, e.high, { s.1 with t3 := e.low, t4 := ← Word.add? s.1.t5 e.high }⟩

theorem gather?_eq (a : UInt256) (w : UInt64) (t : WideAccumulator) :
    t.gather? a w = some (t.lower.addProduct a w) := by
  have hrange : List.range 4 = [0, 1, 2, 3] := rfl
  simp only [gather?, hrange, addMultiple?, Word.mulSum?_eq, Word.mulAdd_comm _ w, Word.sum?_eq]
  rfl

/-- Each word is read before the one above it is moved down to its place. -/
theorem addMultiple?_shift_one {m carry : UInt64} {x : UInt256} {t : WideAccumulator}
    {r₁ r₂ r₃ : DoubleWord} (h₁ : Word.mulSum? t.t1 m x.w1 carry = some r₁)
    (h₂ : Word.mulSum? t.t2 m x.w2 r₁.high = some r₂)
    (h₃ : Word.mulSum? t.t3 m x.w3 r₂.high = some r₃) :
    addMultiple? m x 1 (List.range 3) t carry =
      some (⟨r₁.low, r₂.low, r₃.low, t.t3, t.t4, t.t5⟩, r₃.high) := by
  have hrange : List.range 3 = [0, 1, 2] := rfl
  rw [Word.mulSum?_eq_some_iff] at h₁ h₂ h₃
  subst h₁ h₂ h₃
  simp only [hrange, addMultiple?, Word.mulSum?_eq]
  rfl

section Reduction

-- The sums have names of their own, so that no proof computes the products by the prime's words.
variable {t : WideAccumulator} {d r₁ r₂ r₃ e : DoubleWord}
  (hd : Word.mulSum? t.t0 t.factor modulus.w0 0 = some d)
  (h₁ : Word.mulSum? t.t1 t.factor modulus.w1 d.high = some r₁)
  (h₂ : Word.mulSum? t.t2 t.factor modulus.w2 r₁.high = some r₂)
  (h₃ : Word.mulSum? t.t3 t.factor modulus.w3 r₂.high = some r₃)
  (he : Word.sum? t.t4 r₃.high 0 = some e)

include hd

theorem low_eq_zero : d.low = 0 := by
  obtain rfl : t.cleared = d := Word.mulSum?_eq_some_iff.1 hd
  exact t.low_cleared

include h₁ h₂ h₃ he

theorem reduce_eq : t.reduce = ⟨r₁.low, r₂.low, r₃.low, e.low, t.t5 + e.high⟩ := by
  obtain rfl : t.cleared = d := Word.mulSum?_eq_some_iff.1 hd
  rw [Word.mulSum?_eq_some_iff] at h₁ h₂ h₃
  rw [Word.sum?_eq, Option.some.injEq] at he
  subst h₁ h₂ h₃ he
  rfl

theorem clear?_eq_some {top : UInt64} (htop : Word.add? t.t5 e.high = some top) :
    t.clear? = some ⟨d.low, e.high, ⟨r₁.low, r₂.low, r₃.low, e.low, top, t.t5⟩⟩ :=
  Option.bind_eq_some_iff.2 ⟨d, hd,
    Option.bind_eq_some_iff.2 ⟨_, addMultiple?_shift_one h₁ h₂ h₃,
      Option.bind_eq_some_iff.2 ⟨e, he,
        Option.bind_eq_some_iff.2 ⟨top, htop, rfl⟩⟩⟩⟩

end Reduction

theorem exists_clear? {t : WideAccumulator} (h5 : t.t5.toNat ≤ 1) : ∃ c, t.clear? = some c ∧
    c.dropped = 0 ∧ t.t5.toNat + c.carry.toNat < 2 ^ 64 ∧ c.words.lower = t.reduce := by
  obtain ⟨d, hd⟩ := Word.exists_mulSum? t.t0 t.factor modulus.w0 0
  obtain ⟨r₁, h₁⟩ := Word.exists_mulSum? t.t1 t.factor modulus.w1 d.high
  obtain ⟨r₂, h₂⟩ := Word.exists_mulSum? t.t2 t.factor modulus.w2 r₁.high
  obtain ⟨r₃, h₃⟩ := Word.exists_mulSum? t.t3 t.factor modulus.w3 r₂.high
  obtain ⟨e, he, hcarry⟩ := Word.exists_sum?_zero t.t4 r₃.high
  have hsum : t.t5.toNat + e.high.toNat < 2 ^ 64 := by omega
  exact ⟨_, clear?_eq_some hd h₁ h₂ h₃ he (Word.add?_of_lt hsum), low_eq_zero hd, hsum,
    (reduce_eq hd h₁ h₂ h₃ he).symm⟩

theorem exists_round {t : WideAccumulator} {a : UInt256} (h : t.lower.Bounded a) (w : UInt64) :
    ∃ s c, t.gather? a w = some s ∧ s.t5.toNat ≤ 1 ∧ s.clear? = some c ∧ c.dropped = 0 ∧
      s.t5.toNat + c.carry.toNat < 2 ^ 64 ∧ c.words.lower = t.lower.round a w := by
  have h5 := Accumulator.t5_addProduct_le h w
  obtain ⟨c, hc⟩ := exists_clear? h5
  exact ⟨_, c, t.gather?_eq a w, h5, hc⟩

end WideAccumulator

namespace Accumulator

def rounds (a b : UInt256) : ℕ → Accumulator
  | 0 => zero
  | n + 1 => if h : n < 4 then (rounds a b n).round a (b.word ⟨n, h⟩) else rounds a b n

theorem rounds_succ (a b : UInt256) {n : ℕ} (hn : n < 4) :
    rounds a b (n + 1) = (rounds a b n).round a (b.word ⟨n, hn⟩) := dif_pos hn

theorem rounds_four (a b : UInt256) : rounds a b 4 = product a b := rfl

/-- What rounds keep: the bound, and that up to a multiple of the prime they divide the product of
`a` and the words used up by the weight of those words. -/
structure Holds (a b : UInt256) (n : ℕ) (t : Accumulator) : Prop where
  bounded : t.Bounded a
  value : ∃ k, 2 ^ (64 * n) * t.toNat = a.toNat * (b.toNat % 2 ^ (64 * n)) + k * prime

theorem holds_zero (a b : UInt256) : Holds a b 0 zero :=
  ⟨bounded_zero a, 0, by rw [toNat_zero, Nat.mul_zero, Nat.pow_zero, Nat.mod_one, Nat.mul_zero,
    Nat.zero_mul]⟩

theorem Holds.round {a b : UInt256} {n : ℕ} {t : Accumulator} (h : Holds a b n t) (hn : n < 4) :
    Holds a b (n + 1) (t.round a (b.word ⟨n, hn⟩)) := by
  obtain ⟨k, hk⟩ := h.value
  have hround := toNat_round h.bounded (b.word ⟨n, hn⟩)
  refine ⟨bounded_round h.bounded _,
    k + 2 ^ (64 * n) * (t.addProduct a (b.word ⟨n, hn⟩)).factor.toNat, ?_⟩
  rw [b.toNat_mod_succ hn]
  -- The multiples of the prime add up, each at the weight of the word of its round.
  generalize (t.addProduct a (b.word ⟨n, hn⟩)).factor.toNat = m at *
  generalize t.round a (b.word ⟨n, hn⟩) = t' at *
  calc 2 ^ (64 * (n + 1)) * t'.toNat
      = 2 ^ (64 * n) * (UInt64.size * t'.toNat) := by
        rw [Nat.mul_succ, Nat.pow_add, Nat.mul_assoc]
    _ = 2 ^ (64 * n) * t.toNat
          + (a.toNat * (2 ^ (64 * n) * (b.word ⟨n, hn⟩).toNat) + 2 ^ (64 * n) * m * prime) := by
        rw [hround]
        ring
    _ = a.toNat * (b.toNat % 2 ^ (64 * n) + 2 ^ (64 * n) * (b.word ⟨n, hn⟩).toNat)
          + (k + 2 ^ (64 * n) * m) * prime := by
        rw [hk]
        ring

theorem holds_rounds (a b : UInt256) {n : ℕ} (hn : n ≤ 4) : Holds a b n (rounds a b n) := by
  induction n with
  | zero => exact holds_zero a b
  | succ n ih =>
    rw [rounds_succ a b hn]
    exact (ih (Nat.le_of_succ_le hn)).round hn

theorem Holds.modEq {a b : UInt256} {n : ℕ} {t : Accumulator} (h : Holds a b n t) :
    t.toNat * 2 ^ (64 * n) ≡ a.toNat * (b.toNat % 2 ^ (64 * n)) [MOD prime] := by
  obtain ⟨k, hk⟩ := h.value
  rw [Nat.mul_comm, hk]
  exact Nat.add_mul_mod_self_right _ k prime

end Accumulator

open WideAccumulator Accumulator

def rounds? (a b : UInt256) : ℕ → Option WideAccumulator
  | 0 => some ⟨0, 0, 0, 0, 0, 0⟩
  | n + 1 => do
    let t ← rounds? a b n
    let s ← t.gather? a (← b.word? n)
    return (← s.clear?).words

/-- The product with every step of its loops checked. -/
def mulByIndex? (a b : UInt256) : Option UInt256 :=
  (rounds? a b 4).map fun t => t.lower.toResidue

theorem rounds?_succ {a b : UInt256} {n : ℕ} (hn : n < 4) {t s : WideAccumulator} {c : Cleared}
    (ht : rounds? a b n = some t) (hs : t.gather? a (b.word ⟨n, hn⟩) = some s)
    (hc : s.clear? = some c) : rounds? a b (n + 1) = some c.words :=
  Option.bind_eq_some_iff.2 ⟨t, ht,
    Option.bind_eq_some_iff.2 ⟨_, b.word?_of_lt hn,
      Option.bind_eq_some_iff.2 ⟨s, hs,
        Option.bind_eq_some_iff.2 ⟨c, hc, rfl⟩⟩⟩⟩

theorem exists_rounds? (a b : UInt256) {n : ℕ} (hn : n ≤ 4) :
    ∃ t, rounds? a b n = some t ∧ t.lower = rounds a b n := by
  induction n with
  | zero => exact ⟨_, rfl, rfl⟩
  | succ n ih =>
    obtain ⟨t, ht, hlower⟩ := ih (Nat.le_of_succ_le hn)
    -- The next round runs because the rounds before it have kept the bound.
    have hbounded := (holds_rounds a b (Nat.le_of_succ_le hn)).bounded
    rw [← hlower] at hbounded
    obtain ⟨s, c, hs, -, hc, -, -, hround⟩ := exists_round hbounded (b.word ⟨n, hn⟩)
    refine ⟨c.words, rounds?_succ hn ht hs hc, ?_⟩
    rw [hround, hlower, rounds_succ a b hn]

theorem mulByIndex?_eq (a b : UInt256) : mulByIndex? a b = some (mul a b) := by
  obtain ⟨t, ht, hlower⟩ := exists_rounds? a b le_rfl
  rw [rounds_four] at hlower
  have hmul : mul a b = t.lower.toResidue := by
    unfold mul
    rw [hlower]
  exact Option.map_eq_some_iff.2 ⟨t, ht, hmul.symm⟩

theorem mod_eq_ite {n : ℕ} (h : n < 2 * prime) :
    n % prime = if n < prime then n else n - prime := by
  by_cases hn : n < prime
  · rw [if_pos hn, Nat.mod_eq_of_lt hn]
  · rw [if_neg hn, Nat.mod_eq_sub_mod (Nat.not_lt.1 hn), Nat.mod_eq_of_lt (by omega)]

/-- For any `a` and `b`, none of the four rounds fails: the sixth word is at most one when the
multiple of the prime is added, the lowest word is then zero and can be dropped, and the sixth word
and the last carry fit in a word together. The five words that are left are below `a` plus the
prime, and times the weight of the words of `b` used up they are the product of `a` and those words,
modulo the prime. For `b` below the prime they are below twice the prime at the end, so the product
is reduced by at most one subtraction. -/
theorem accumulator_bounded (a b : UInt256) :
    (∀ i < 4, ∃ (w : UInt64) (t s : WideAccumulator) (c : Cleared),
      b.word? i = some w ∧ rounds? a b i = some t ∧
      t.gather? a w = some s ∧ s.t5.toNat ≤ 1 ∧
      s.clear? = some c ∧ c.dropped = 0 ∧ s.t5.toNat + c.carry.toNat < 2 ^ 64 ∧
      rounds? a b (i + 1) = some c.words ∧
      c.words.lower.toNat < a.toNat + prime ∧
      c.words.lower.toNat * 2 ^ (64 * (i + 1)) ≡
        a.toNat * (b.toNat % 2 ^ (64 * (i + 1))) [MOD prime]) ∧
    (b.toNat < prime → ∃ t, rounds? a b 4 = some t ∧ t.lower.toNat < 2 * prime ∧
      mulByIndex? a b = some (mul a b) ∧
      (mul a b).toNat =
        if t.lower.toNat < prime then t.lower.toNat else t.lower.toNat - prime) := by
  constructor
  · intro i hi
    obtain ⟨t, ht, hlower⟩ := exists_rounds? a b hi.le
    have hbounded := (holds_rounds a b hi.le).bounded
    rw [← hlower] at hbounded
    obtain ⟨s, c, hs, h5, hc, hdropped, hsum, hround⟩ := exists_round hbounded (b.word ⟨i, hi⟩)
    have hholds := holds_rounds a b (Nat.succ_le_of_lt hi)
    rw [rounds_succ a b hi, ← hlower, ← hround] at hholds
    exact ⟨_, t, s, c, b.word?_of_lt hi, ht, hs, h5, hc, hdropped, hsum, rounds?_succ hi ht hs hc,
      hholds.bounded, hholds.modEq⟩
  · intro hb
    obtain ⟨t, ht, hlower⟩ := exists_rounds? a b le_rfl
    rw [rounds_four] at hlower
    have hlt : t.lower.toNat < 2 * prime := hlower ▸ product_lt hb
    refine ⟨t, ht, hlt, mulByIndex?_eq a b, ?_⟩
    rw [toNat_mul hb, ← hlower, mod_eq_ite hlt]

/-- With the greatest `a` the first round already needs the fifth word. -/
theorem accumulator_bounded_max :
    (UInt256.max >>> 64).toNat < prime ∧
      (rounds? UInt256.max (UInt256.max >>> 64) 1).map (fun t => t.lower.t4) = some 1 ∧
      ∃ t, rounds? UInt256.max (UInt256.max >>> 64) 4 = some t ∧ t.lower.toNat < 2 * prime ∧
        mulByIndex? UInt256.max (UInt256.max >>> 64) =
          some (mul UInt256.max (UInt256.max >>> 64)) := by
  have hb : (UInt256.max >>> 64).toNat < prime := by decide
  obtain ⟨t, ht, hlt, hmul, -⟩ := (accumulator_bounded UInt256.max _).2 hb
  exact ⟨hb, by decide +kernel, t, ht, hlt, hmul⟩

end Montgomery

end FieldSponge
