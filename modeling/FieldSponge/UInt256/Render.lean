import FieldSponge.UInt256.Division

/-! Numerals of 256-bit integers. Hexadecimal digits come from the words, decimal digits from the
remainders of repeated division by the greatest power of ten in a word. Only the leading piece is
written without padding. Only ASCII digits are read; a hexadecimal digit has two spellings. -/
namespace FieldSponge

inductive Radix where
  | decimal
  | hexadecimal
deriving DecidableEq, Repr

namespace Radix

def base : Radix → UInt64
  | decimal => 10
  | hexadecimal => 16

def digit? : Radix → Char → Option UInt64
  | decimal, c => if c.isDigit then some (UInt64.ofNat (c.toNat - 48)) else none
  | hexadecimal, c =>
    if c.isDigit then some (UInt64.ofNat (c.toNat - 48))
    else if 'a' ≤ c ∧ c ≤ 'f' then some (UInt64.ofNat (c.toNat - 87))
    else if 'A' ≤ c ∧ c ≤ 'F' then some (UInt64.ofNat (c.toNat - 55))
    else none

end Radix

inductive LetterCase where
  | lower
  | upper
deriving DecidableEq, Repr

namespace Numeral

def hexMark : List Char := ['0', 'x']

/-- The digits of `n`, with zeros in front up to the given width. -/
def padded (base width n : Nat) : List Char := (Nat.toDigits base n).leftpad width '0'

/-- Hexadecimal digits are lower case; this gives them the case asked for. -/
def withCase : LetterCase → List Char → List Char
  | .lower, digits => digits
  | .upper, digits => digits.map Char.toUpper

end Numeral

namespace UInt256

def decimalChunk : UInt64 := 10000000000000000000

theorem toNat_fst_divModWord_lt {a : UInt256} {d : UInt64} (ha : a ≠ 0) (hd : 1 < d.toNat) :
    (divModWord a d).1.toNat < a.toNat := by
  have hz : a.toNat ≠ 0 := fun g => ha (toNat_inj.1 g)
  have hne : d ≠ 0 := fun g => by simp [g] at hd
  have h := (divModWord_exact a hne).1
  by_cases hq : (divModWord a d).1.toNat = 0
  · omega
  · have := Nat.mul_lt_mul_of_pos_left hd (Nat.pos_of_ne_zero hq)
    omega

/-- The digits in base `10 ^ 19`, the least significant first. -/
def decimalChunks (a : UInt256) : List UInt64 :=
  if h : a = 0 then []
  else
    have : (divModWord a decimalChunk).1.toNat < a.toNat := toNat_fst_divModWord_lt h (by decide)
    (divModWord a decimalChunk).2 :: decimalChunks (divModWord a decimalChunk).1
termination_by a.toNat

/-- The leading piece without padding, then the others with it; a single zero for no pieces. -/
def joinPieces (base width : Nat) : List UInt64 → List Char
  | [] => ['0']
  | top :: rest =>
    Nat.toDigits base top.toNat ++ rest.flatMap fun w => Numeral.padded base width w.toNat

def decimalDigits (a : UInt256) : List Char := joinPieces 10 19 a.decimalChunks.reverse

def hexDigits (a : UInt256) : List Char :=
  joinPieces 16 16 ([a.w3, a.w2, a.w1, a.w0].dropWhile (· == 0))

inductive Form where
  | decimal
  | hexadecimal (letters : LetterCase) (marked : Bool)

def render (form : Form) (a : UInt256) : String :=
  match form with
  | .decimal => String.ofList a.decimalDigits
  | .hexadecimal letters marked =>
    String.ofList ((if marked then Numeral.hexMark else []) ++ Numeral.withCase letters a.hexDigits)

def toDecimal (a : UInt256) : String := a.render .decimal

def toHex (a : UInt256) : String := a.render (.hexadecimal .lower true)

def describe (a : UInt256) : String := "U256(" ++ a.toHex ++ ")"

end UInt256

end FieldSponge
