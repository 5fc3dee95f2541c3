import FieldSponge.Felt.Json

/-! The field on stored words alone. Each operation here works on any 256-bit words, with nothing
that says they are below the prime; `mont` takes the operation on elements to it. -/
namespace FieldSponge
namespace Stored

open Montgomery

def isOne (a : UInt256) : Bool := a == radix

@[simp] theorem isOne_mont (a : Felt) : isOne a.mont = a.isOne := by
  rw [Bool.eq_iff_iff, Felt.isOne_iff, isOne, beq_iff_eq]
  exact Felt.mont_inj (b := 1)

@[simp] theorem isZero_mont (a : Felt) : a.mont.isZero = a.isZero := rfl

@[simp] theorem toCanonical_mont (a : Felt) : toCanonical a.mont = a.toUInt256 := rfl

@[simp] theorem mont_zero : (0 : Felt).mont = 0 := rfl

@[simp] theorem mont_one : (1 : Felt).mont = radix := rfl

@[simp] theorem mont_ofUInt256 (x : UInt256) : (Felt.ofUInt256 x).mont = ofCanonical x := by
  rfl

@[simp] theorem mont_add (a b : Felt) : (a + b).mont = add a.mont b.mont := by
  rfl

@[simp] theorem mont_sub (a b : Felt) : (a - b).mont = sub a.mont b.mont := by
  rfl

@[simp] theorem mont_neg (a : Felt) : (-a).mont = neg a.mont := by
  rfl

@[simp] theorem mont_mul (a b : Felt) : (a * b).mont = mul a.mont b.mont := by
  rfl

def square (a : UInt256) : UInt256 := mul a a

@[simp] theorem mont_square (a : Felt) : a.square.mont = square a.mont := by
  rfl

def double (a : UInt256) : UInt256 := add a a

@[simp] theorem mont_double (a : Felt) : a.double.mont = double a.mont := by
  rfl

def sum (xs : List UInt256) : UInt256 := xs.foldl add 0

def product (xs : List UInt256) : UInt256 := xs.foldl mul radix

/-- Folding stored words and folding elements go side by side. -/
theorem mont_foldl {f : Felt → Felt → Felt} {g : UInt256 → UInt256 → UInt256}
    (h : ∀ a b, (f a b).mont = g a.mont b.mont) (xs : List Felt) (a : Felt) :
    (xs.foldl f a).mont = (xs.map Felt.mont).foldl g a.mont := by
  induction xs generalizing a with
  | nil => rfl
  | cons x xs ih => rw [List.foldl_cons, List.map_cons, List.foldl_cons, ih, h]

@[simp] theorem mont_sum (xs : List Felt) : (Felt.sum xs).mont = sum (xs.map Felt.mont) :=
  mont_foldl mont_add xs 0

@[simp] theorem mont_product (xs : List Felt) :
    (Felt.product xs).mont = product (xs.map Felt.mont) :=
  mont_foldl mont_mul xs 1

def powBits (a e : UInt256) : Nat → UInt256 → UInt256
  | 0, power => power
  | i + 1, power =>
    powBits a e i (if e.bit i then mul (square power) a else square power)

def pow (a e : UInt256) : UInt256 := powBits a e e.bitLength radix

theorem mont_powBits (a : Felt) (e : UInt256) (i : Nat) (power : Felt) :
    (a.powBits e i power).mont = powBits a.mont e i power.mont := by
  induction i generalizing power with
  | zero => rfl
  | succ i ih =>
    rw [Felt.powBits, powBits, ih]
    split <;> rfl

@[simp] theorem mont_pow (a : Felt) (e : UInt256) : (a ^ e).mont = pow a.mont e :=
  mont_powBits a e e.bitLength 1

def powWord (a : UInt256) (e : UInt64) : UInt256 := pow a (.ofWord e)

@[simp] theorem mont_powWord (a : Felt) (e : UInt64) : (a.powWord e).mont = powWord a.mont e :=
  mont_pow a (.ofWord e)

def powElement (a b : UInt256) : UInt256 := pow a (toCanonical b)

@[simp] theorem mont_powFelt (a b : Felt) : (a.powFelt b).mont = powElement a.mont b.mont :=
  mont_pow a b.toUInt256

def inverse (a : UInt256) : Except Felt.Error UInt256 :=
  if a.isZero then .error .divisionByZero else .ok (pow a Felt.inverseExponent)

theorem map_mont_inverse (a : Felt) : a.inverse.map Felt.mont = inverse a.mont := by
  rw [Felt.inverse, inverse, isZero_mont]
  split
  · rfl
  · exact congrArg Except.ok (mont_pow a _)

def div (a b : UInt256) : Except Felt.Error UInt256 := (inverse b).map (mul a)

theorem map_mont_div (a b : Felt) : (a.div b).map Felt.mont = div a.mont b.mont := by
  rw [Felt.div, div, ← map_mont_inverse]
  cases b.inverse <;> rfl

def ofDivMod? : Option (UInt256 × UInt256) → Except Felt.Error (UInt256 × UInt256)
  | none => .error .divisionByZero
  | some (q, r) => .ok (ofCanonical q, ofCanonical r)

def divMod (a b : UInt256) : Except Felt.Error (UInt256 × UInt256) :=
  ofDivMod? ((toCanonical a).divMod? (toCanonical b))

theorem map_mont_divMod (a b : Felt) :
    (a.divMod b).map (Prod.map Felt.mont Felt.mont) = divMod a.mont b.mont := by
  have h : ∀ qr, (Felt.ofDivMod? qr).map (Prod.map Felt.mont Felt.mont) = ofDivMod? qr := by
    rintro (_ | ⟨q, r⟩) <;> rfl
  exact h (a.toUInt256.divMod? b.toUInt256)

def isSquare (a : UInt256) : Bool := a.isZero || isOne (pow a Felt.half)

@[simp] theorem isSquare_mont (a : Felt) : isSquare a.mont = a.isSquare := by
  rw [isSquare, Felt.isSquare, isZero_mont, ← mont_pow, isOne_mont]

def squareTimes (a : UInt256) : Nat → UInt256
  | 0 => a
  | n + 1 => squareTimes (square a) n

@[simp] theorem mont_squareTimes (a : Felt) (n : Nat) :
    (a.squareTimes n).mont = squareTimes a.mont n := by
  induction n generalizing a with
  | zero => rfl
  | succ n ih => exact ih a.square

/-- A candidate root in stored words. -/
structure RootSearch where
  order : Nat
  unity : UInt256
  defect : UInt256
  root : UInt256

namespace RootSearch

def ofElements (s : Felt.RootSearch) : RootSearch :=
  ⟨s.order, s.unity.mont, s.defect.mont, s.root.mont⟩

def leastSquarings? (x : UInt256) (start : Nat) : Nat → Option Nat
  | 0 => none
  | count + 1 => if isOne x then some start else leastSquarings? (square x) (start + 1) count

theorem leastSquarings?_mont (x : Felt) (start count : Nat) :
    leastSquarings? x.mont start count = Felt.RootSearch.leastSquarings? x start count := by
  induction count generalizing x start with
  | zero => rfl
  | succ count ih =>
    rw [leastSquarings?, Felt.RootSearch.leastSquarings?, isOne_mont, ← mont_square, ih]

def defectOrder? (s : RootSearch) : Option Nat :=
  leastSquarings? (square s.defect) 1 (s.order - 1)

@[simp] theorem defectOrder?_ofElements (s : Felt.RootSearch) :
    (ofElements s).defectOrder? = s.defectOrder? :=
  leastSquarings?_mont s.defect.square 1 (s.order - 1)

def improve (s : RootSearch) (i : Nat) : RootSearch :=
  let b := squareTimes s.unity (s.order - i - 1)
  ⟨i, square b, mul s.defect (square b), mul s.root b⟩

@[simp] theorem improve_ofElements (s : Felt.RootSearch) (i : Nat) :
    (ofElements s).improve i = ofElements (s.improve i) := by
  simp only [improve, ofElements, Felt.RootSearch.improve, mont_mul, mont_square,
    mont_squareTimes]

/-- Improves the candidate, and looks at the defect at most so many times. -/
def finish? : Nat → RootSearch → Option UInt256
  | 0, _ => none
  | looks + 1, s =>
    if isOne s.defect then some s.root
    else s.defectOrder?.bind fun i => finish? looks (s.improve i)

/-- An improvement lowers the order, so one look more than the order is enough. -/
theorem finish?_ofElements {looks : Nat} {s : Felt.RootSearch} (h : s.order < looks) :
    finish? looks (ofElements s) = s.finish?.map Felt.mont := by
  induction looks generalizing s with
  | zero => omega
  | succ looks ih =>
    have hone : isOne (ofElements s).defect = s.defect.isOne := isOne_mont s.defect
    rw [finish?, Felt.RootSearch.finish?_eq, hone, defectOrder?_ofElements]
    split
    · rfl
    · cases hi : s.defectOrder? with
      | none => rfl
      | some i =>
        have hlt : i < s.order := (Felt.RootSearch.defectOrder?_lt hi).2
        have horder : (s.improve i).order < looks := show i < looks by omega
        rw [Option.bind_some, Option.bind_some, improve_ofElements]
        exact ih horder

def start (a : UInt256) : RootSearch :=
  ⟨Felt.twoAdicity, ofCanonical ⟨0x6070024f42f8ef94, 0xad187148e11a6161, 0x3f0464519c8b0fa5,
    0x005282db87529cfa⟩, pow a Felt.oddPart, pow a Felt.oddPartHalf⟩

@[simp] theorem start_mont (a : Felt) : start a.mont = ofElements (.start a) := by
  simp only [start, ofElements, Felt.RootSearch.start, mont_pow]
  rfl

end RootSearch

/-- The word of smaller canonical value. -/
def least (a b : UInt256) : UInt256 := if toCanonical b < toCanonical a then b else a

@[simp] theorem mont_min (a b : Felt) : (min a b).mont = least a.mont b.mont := by
  change (if a ≤ b then a else b).mont = if b < a then b.mont else a.mont
  by_cases h : a ≤ b
  · have hlt : ¬ b < a := Nat.not_lt.2 h
    rw [if_pos h, if_neg hlt]
  · have hlt : b < a := Nat.not_le.1 h
    rw [if_neg h, if_pos hlt]

def sqrt? (a : UInt256) : Option UInt256 :=
  if a.isZero then some 0
  else if isSquare a then
    (RootSearch.finish? (Felt.twoAdicity + 1) (.start a)).map fun r => least r (neg r)
  else none

theorem map_mont_sqrt? (a : Felt) : a.sqrt?.map Felt.mont = sqrt? a.mont := by
  have hfinish := RootSearch.finish?_ofElements (s := .start a) (Nat.lt_succ_self Felt.twoAdicity)
  rw [Felt.sqrt?, sqrt?, isZero_mont, isSquare_mont, RootSearch.start_mont, hfinish]
  split
  · rfl
  · split
    · cases (Felt.RootSearch.start a).finish? with
      | none => simp only [Option.map_none]
      | some r => simp only [Option.map_some, mont_min, mont_neg]
    · rfl

/-- An operation on the words of the canonical values. -/
def onCanonical (f : UInt256 → UInt256 → UInt256) (a b : UInt256) : UInt256 :=
  ofCanonical (f (toCanonical a) (toCanonical b))

@[simp] theorem mont_and (a b : Felt) : (a &&& b).mont = onCanonical (· &&& ·) a.mont b.mont := by
  rfl

@[simp] theorem mont_or (a b : Felt) : (a ||| b).mont = onCanonical (· ||| ·) a.mont b.mont := by
  rfl

@[simp] theorem mont_xor (a b : Felt) : (a ^^^ b).mont = onCanonical (· ^^^ ·) a.mont b.mont := by
  rfl

def shiftLeft (a : UInt256) (n : Nat) : UInt256 := ofCanonical (toCanonical a <<< n)

@[simp] theorem mont_shiftLeft (a : Felt) (n : Nat) : (a <<< n).mont = shiftLeft a.mont n := by
  rfl

def shiftRight (a : UInt256) (n : Nat) : UInt256 := ofCanonical (toCanonical a >>> n)

@[simp] theorem mont_shiftRight (a : Felt) (n : Nat) : (a >>> n).mont = shiftRight a.mont n := by
  rfl

def ofWord (w : UInt64) : UInt256 := ofCanonical (.ofWord w)

@[simp] theorem mont_ofWord (w : UInt64) : (Felt.ofWord w).mont = ofWord w := by
  rfl

def readDigits (radix : Radix) (index : Nat) (value : UInt256) :
    List Char → Except Felt.Error UInt256
  | [] => .ok value
  | c :: rest =>
    match radix.digit? c with
    | some d =>
      readDigits radix (index + c.utf8Size) (add (mul value (ofWord radix.base)) (ofWord d)) rest
    | none => .error (.parse radix (.invalidDigit index c))

theorem map_mont_readDigits (radix : Radix) (index : Nat) (value : Felt) (digits : List Char) :
    (Felt.readDigits radix index value digits).map Felt.mont =
      readDigits radix index value.mont digits := by
  induction digits generalizing index value with
  | nil => rfl
  | cons c rest ih =>
    rw [Felt.readDigits, readDigits]
    cases radix.digit? c with
    | none => rfl
    | some d => exact ih (index + c.utf8Size) (value * Felt.ofWord radix.base + Felt.ofWord d)

def readNumeral (radix : Radix) (index : Nat) (digits : List Char) : Except Felt.Error UInt256 :=
  if digits.isEmpty then .error (.parse radix .empty) else readDigits radix index 0 digits

theorem map_mont_readNumeral (radix : Radix) (index : Nat) (digits : List Char) :
    (Felt.readNumeral radix index digits).map Felt.mont = readNumeral radix index digits := by
  rw [Felt.readNumeral, readNumeral]
  split
  · rfl
  · exact map_mont_readDigits radix index 0 digits

def readHex : List Char → Except Felt.Error UInt256
  | '0' :: 'x' :: digits => readNumeral .hexadecimal 2 digits
  | '0' :: 'X' :: digits => readNumeral .hexadecimal 2 digits
  | digits => readNumeral .hexadecimal 0 digits

theorem map_mont_readHex (text : List Char) :
    (Felt.readHex text).map Felt.mont = readHex text := by
  fun_cases readHex text with
  | case1 digits => exact map_mont_readNumeral .hexadecimal 2 digits
  | case2 digits => exact map_mont_readNumeral .hexadecimal 2 digits
  | case3 _ hlower hupper =>
    rw [Felt.readHex]
    · exact map_mont_readNumeral .hexadecimal 0 text
    · exact hlower
    · exact hupper

def readDecimal : List Char → Except Felt.Error UInt256
  | '-' :: digits => (readNumeral .decimal 1 digits).map neg
  | digits => readNumeral .decimal 0 digits

theorem map_mont_readDecimal (text : List Char) :
    (Felt.readDecimal text).map Felt.mont = readDecimal text := by
  fun_cases readDecimal text with
  | case1 digits =>
    rw [Felt.readDecimal, ← map_mont_readNumeral]
    cases Felt.readNumeral .decimal 1 digits <;> rfl
  | case2 _ hsign =>
    rw [Felt.readDecimal]
    · exact map_mont_readNumeral .decimal 0 text
    · exact hsign

def parse (text : String) : Except Felt.Error UInt256 :=
  if Felt.isMarkedHex text.toList then readHex text.toList else readDecimal text.toList

theorem map_mont_parse (text : String) : (Felt.parse text).map Felt.mont = parse text := by
  rw [Felt.parse, parse]
  split
  · exact map_mont_readHex text.toList
  · exact map_mont_readDecimal text.toList

def ofJson : Json → Except Felt.JsonError UInt256
  | .string text => (parse text).mapError .malformed
  | .number (.natural n) => .ok (ofWord n)
  | value => .error (.unexpected value)

theorem map_mont_ofJson (value : Json) : (Felt.ofJson value).map Felt.mont = ofJson value := by
  cases value with
  | string text =>
    rw [Felt.ofJson, ofJson, ← map_mont_parse]
    cases Felt.parse text <;> rfl
  | number n => cases n <;> rfl
  | null | boolean | sequence | object => rfl

def ofBytesLE (bytes : List UInt8) : Except Felt.Error UInt256 :=
  (Felt.exactBytes bytes).map fun v => ofCanonical (.ofBytesLE v)

theorem map_mont_ofBytesLE (bytes : List UInt8) :
    (Felt.ofBytesLE bytes).map Felt.mont = ofBytesLE bytes := by
  rw [Felt.ofBytesLE, ofBytesLE]
  cases Felt.exactBytes bytes <;> rfl

def ofBytesBE (bytes : List UInt8) : Except Felt.Error UInt256 :=
  (Felt.exactBytes bytes).map fun v => ofCanonical (.ofBytesBE v)

theorem map_mont_ofBytesBE (bytes : List UInt8) :
    (Felt.ofBytesBE bytes).map Felt.mont = ofBytesBE bytes := by
  rw [Felt.ofBytesBE, ofBytesBE]
  cases Felt.exactBytes bytes <;> rfl

def sample? : Nat → WordTape → Option UInt256
  | 0, _ => none
  | attempts + 1, t =>
    if t.candidate < modulus then some (ofCanonical t.candidate) else sample? attempts t.advance

theorem map_mont_sample? (attempts : Nat) (t : WordTape) :
    (Felt.sample? attempts t).map (fun p => p.1.mont) = sample? attempts t := by
  induction attempts generalizing t with
  | zero => rfl
  | succ attempts ih =>
    rw [Felt.sample?, sample?]
    split
    · rfl
    · exact ih t.advance

end Stored

end FieldSponge
