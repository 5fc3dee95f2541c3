import FieldSponge.Felt.Arithmetic

/-! Square roots by the method of Tonelli and Shanks. With `prime - 1 = 2 ^ 192 * q` for an odd `q`,
the search keeps a candidate whose square is `a` up to a factor of order a power of two, and lowers
that order until the factor is one. -/
namespace FieldSponge
namespace Felt

/-- Half of `prime - 1`, the exponent of Euler's criterion and the greatest value with a root of its
own sign. -/
def half : UInt256 := ⟨0, 0, 0x8000000000000000, 0x0400000000000008⟩

theorem toNat_half : half.toNat = (prime - 1) / 2 := rfl

def oddPart : UInt256 := .ofWord 0x0800000000000011

theorem toNat_oddPart : oddPart.toNat <<< twoAdicity = prime - 1 := rfl

def oddPartHalf : UInt256 := .ofWord 0x0400000000000009

theorem toNat_oddPartHalf : 2 * oddPartHalf.toNat = oddPart.toNat + 1 := rfl

/-- An element of order `2 ^ 192`, the power of three by the odd part of `prime - 1`. -/
def rootOfUnity : Felt :=
  ofUInt256 ⟨0x6070024f42f8ef94, 0xad187148e11a6161, 0x3f0464519c8b0fa5, 0x005282db87529cfa⟩

def isSquare (a : Felt) : Bool := a.isZero || (a ^ half).isOne

def squareTimes (a : Felt) : Nat → Felt
  | 0 => a
  | n + 1 => squareTimes a.square n

/-- A candidate root. Its square is the element sought times `defect`; `unity` has order
`2 ^ order`, and the order of `defect` divides half of that. -/
structure RootSearch where
  order : Nat
  unity : Felt
  defect : Felt
  root : Felt

namespace RootSearch

/-- The least `i` from `start` on, among the next `count` numbers, such that squaring `x` another
`i - start` times gives one. -/
def leastSquarings? (x : Felt) (start : Nat) : Nat → Option Nat
  | 0 => none
  | count + 1 => if x.isOne then some start else leastSquarings? x.square (start + 1) count

def defectOrder? (s : RootSearch) : Option Nat := leastSquarings? s.defect.square 1 (s.order - 1)

/-- Multiplies the root by the element that lowers the order of the defect from `2 ^ i`. -/
def improve (s : RootSearch) (i : Nat) : RootSearch :=
  let b := s.unity.squareTimes (s.order - i - 1)
  ⟨i, b.square, s.defect * b.square, s.root * b⟩

theorem lt_of_leastSquarings? {x : Felt} {start count i : Nat}
    (h : leastSquarings? x start count = some i) : start ≤ i ∧ i < start + count := by
  induction count generalizing x start with
  | zero => simp [leastSquarings?] at h
  | succ count ih =>
    rw [leastSquarings?] at h
    split at h
    · simp only [Option.some.injEq] at h
      omega
    · have := ih h
      omega

theorem defectOrder?_lt {s : RootSearch} {i : Nat} (h : s.defectOrder? = some i) :
    1 ≤ i ∧ i < s.order := by
  have := lt_of_leastSquarings? h
  omega

def finish? (s : RootSearch) : Option Felt :=
  if s.defect.isOne then some s.root
  else match h : s.defectOrder? with
    | none => none
    | some i =>
      have : i < s.order := (defectOrder?_lt h).2
      finish? (s.improve i)
termination_by s.order
decreasing_by exact this

theorem finish?_eq (s : RootSearch) : s.finish? =
    if s.defect.isOne then some s.root
    else s.defectOrder?.bind fun i => (s.improve i).finish? := by
  rw [finish?]
  split
  · rfl
  · split
    · rename_i h
      simp only [h, Option.bind_none]
    · rename_i i h
      simp only [h, Option.bind_some]

def start (a : Felt) : RootSearch := ⟨twoAdicity, rootOfUnity, a ^ oddPart, a ^ oddPartHalf⟩

end RootSearch

/-- The square root of smaller canonical value. -/
def sqrt? (a : Felt) : Option Felt :=
  if a.isZero then some 0
  else if a.isSquare then (RootSearch.start a).finish?.map fun r => min r (-r)
  else none

end Felt

end FieldSponge
