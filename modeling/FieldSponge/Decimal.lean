/-! The shortest decimal that reads back as a given binary number. A number `m * 2 ^ q` of limited
precision stands for an interval of reals; of the decimals with fewest digits in it, the nearest to
the number is taken, and of two as near the one with an even last digit. -/
namespace FieldSponge

structure Decimal where
  digits : Nat
  exponent : Int
deriving DecidableEq, Repr

/-- The number `significand * 2 ^ exponent`. The neighbour below is half as far as the one above
when the significand is the least of its length. -/
structure Binary where
  significand : Nat
  exponent : Int
  narrowBelow : Bool
deriving DecidableEq, Repr

namespace Binary

/-- Over the denominator, this is `n * 2 ^ exponent / 10 ^ k`. -/
def numerator (n : Nat) (exponent k : Int) : Nat := (n * Nat.pow 10 (-k).toNat) <<< exponent.toNat

def denominator (exponent k : Int) : Nat := Nat.pow 10 k.toNat <<< (-exponent).toNat

def decimalExponent (b : Binary) : Int :=
  let n := numerator b.significand b.exponent 0
  let d := denominator b.exponent 0
  if d ≤ n then (Nat.toDigits 10 (n / d)).length - 1
  else -(((List.range 400).find? fun j => d ≤ n * Nat.pow 10 j).getD 0 : Nat)

/-- Whether `d * 10 ^ k` is in the interval, whose ends lie two quarters of the last place away, or
one. The ends belong to it when the significand is even. -/
def covers (b : Binary) (k : Int) (d : Nat) : Bool :=
  let q := b.exponent - 2
  let low := numerator (4 * b.significand - if b.narrowBelow then 1 else 2) q k
  let high := numerator (4 * b.significand + 2) q k
  let value := d * denominator q k
  if b.significand % 2 = 0 then low ≤ value && value ≤ high else low < value && value < high

def floorOn (b : Binary) (k : Int) : Nat :=
  numerator (4 * b.significand) (b.exponent - 2) k / denominator (b.exponent - 2) k

/-- The multiple of `10 ^ k` that stands for the number, if one of its two neighbours among them
does. -/
def onGrid? (b : Binary) (k : Int) : Option Nat :=
  let d := b.floorOn k
  let twice := 2 * numerator (4 * b.significand) (b.exponent - 2) k
  let middle := (2 * d + 1) * denominator (b.exponent - 2) k
  if b.covers k d then
    if b.covers k (d + 1) then
      if twice < middle ∨ twice = middle ∧ d % 2 = 0 then some d else some (d + 1)
    else some d
  else if b.covers k (d + 1) then some (d + 1) else none

end Binary

namespace Decimal

def withoutZeros (x : Decimal) : Decimal :=
  if h : x.digits ≠ 0 ∧ x.digits % 10 = 0 then withoutZeros ⟨x.digits / 10, x.exponent + 1⟩ else x
termination_by x.digits
decreasing_by omega

/-- The shortest decimal for a number that is not zero, of at most 17 digits. -/
def shortest (b : Binary) : Decimal :=
  let grids := (List.range 17).map fun (n : Nat) => b.decimalExponent - (n : Int)
  ((grids.findSome? fun k => (b.onGrid? k).map (Decimal.mk · k)).map withoutZeros).getD ⟨0, 0⟩

end Decimal

end FieldSponge
