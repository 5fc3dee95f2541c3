import FieldSponge.Decimal
import FieldSponge.Felt.Convert

/-! Field elements in JSON: written as a string of marked hexadecimal digits, read from a string of
any numeral or from an integer of 64 bits. A numeral of JSON without fraction and exponent is an
integer as long as it fits 64 bits, with a sign or without; any other is a binary number of double
precision. -/
namespace FieldSponge
namespace Json

inductive Number where
  | natural (n : UInt64)
  /-- The number below zero of a magnitude up to `2 ^ 63`. -/
  | negative (magnitude : UInt64)
  | float (x : Float)

structure Literal where
  negative : Bool
  whole : List Char
  fraction : Option (List Char)
  exponent : Option (Bool × List Char)

namespace Literal

def readExponent : List Char → Option (Bool × List Char)
  | _ :: '-' :: digits => some (true, digits)
  | _ :: '+' :: digits => some (false, digits)
  | _ :: digits => some (false, digits)
  | [] => none

def read (text : String) : Literal :=
  let isMark (c : Char) : Bool := c == 'e' || c == 'E'
  let (negative, body) := match text.toList with
    | '-' :: body => (true, body)
    | body => (false, body)
  let mantissa := body.takeWhile (!isMark ·)
  let exponent := readExponent (body.dropWhile (!isMark ·))
  match mantissa.dropWhile Char.isDigit with
  | '.' :: fraction => ⟨negative, mantissa.takeWhile Char.isDigit, some fraction, exponent⟩
  | _ => ⟨negative, mantissa.takeWhile Char.isDigit, none, exponent⟩

/-- Takes digits into a significand of 64 bits, and counts those from the first that does not
fit. -/
def takeDigits (significand : Nat) : List Char → Nat × Nat
  | [] => (significand, 0)
  | c :: rest =>
    let next := 10 * significand + (c.toNat - 48)
    if next < UInt64.size then takeDigits next rest else (significand, rest.length + 1)

def significand (l : Literal) : Nat × Int :=
  let fraction := l.fraction.getD []
  match takeDigits 0 l.whole with
  | (n, 0) =>
    let (m, dropped) := takeDigits n fraction
    (m, -(fraction.length - dropped : Int))
  | (n, dropped) =>
    let (m, unused) := takeDigits n fraction
    (m, (dropped : Int) - (fraction.length - unused : Int))

/-- Scales by a power of ten with one rounding, or with two for more than 308 places down. From 617
places on nothing is left of 64 bits. -/
def scale (x : Float) (exponent : Int) : Float :=
  let power (n : Nat) : Float := Float.ofScientific 1 false n
  let places := (-exponent).toNat
  if 0 ≤ exponent then x * power (min exponent.toNat 400)
  else if places ≤ 308 then x / power places
  else if places ≤ 616 then x / power 308 / power (places - 308)
  else 0.0

def toFloat (l : Literal) : Float :=
  let (m, power) := l.significand
  let exponent : Int := match l.exponent with
    | none => 0
    | some (true, digits) => -(Nat.ofDigitChars 10 digits 0 : Int)
    | some (false, digits) => Nat.ofDigitChars 10 digits 0
  let magnitude := if m = 0 then 0.0 else scale (UInt64.ofNat m).toFloat (power + exponent)
  if l.negative then -magnitude else magnitude

end Literal

namespace Number

/-- The number that a numeral denotes. Minus zero is no integer. -/
def ofText (text : String) : Number :=
  let l := Literal.read text
  let n := Nat.ofDigitChars 10 l.whole 0
  match l.fraction, l.exponent, l.negative with
  | none, none, false => if n < UInt64.size then .natural (UInt64.ofNat n) else .float l.toFloat
  | none, none, true =>
    if 0 < n ∧ n ≤ 0x8000000000000000 then .negative (UInt64.ofNat n) else .float l.toFloat
  | _, _, _ => .float l.toFloat

def binary (x : Float) : Binary :=
  let field := ((x.toBits >>> 52) &&& 0x7ff).toNat
  let fraction := (x.toBits &&& 0xfffffffffffff).toNat
  if field = 0 then ⟨fraction, -1074, false⟩
  else ⟨fraction + 0x10000000000000, (field : Int) - 1075, fraction = 0 && 1 < field⟩

/-- Sets a decimal with a point: as it stands from `10 ^ -5` to below `10 ^ 16`, and outside behind
a single digit, with an exponent whose sign is always written. -/
def layout (x : Decimal) : List Char :=
  let digits := Nat.toDigits 10 x.digits
  let point : Int := digits.length + x.exponent
  let zeros (n : Int) : List Char := List.replicate n.toNat '0'
  if 0 ≤ x.exponent ∧ point ≤ 16 then digits ++ zeros x.exponent ++ ['.', '0']
  else if 0 < point ∧ point ≤ 16 then
    digits.take point.toNat ++ '.' :: digits.drop point.toNat
  else if -5 < point ∧ point ≤ 0 then ['0', '.'] ++ zeros (-point) ++ digits
  else
    let power := point - 1
    let exponent := 'e' :: (if power < 0 then '-' else '+') :: Nat.toDigits 10 power.natAbs
    match digits with
    | [d] => d :: exponent
    | d :: rest => d :: '.' :: rest ++ exponent
    | [] => exponent

/-- The shortest text of a finite number, always with a point or an exponent. -/
def floatText (x : Float) : String :=
  let sign := if x.toBits >>> 63 = 1 then ['-'] else []
  let body := if (binary x).significand = 0 then ['0', '.', '0']
    else layout (Decimal.shortest (binary x))
  String.ofList (sign ++ body)

end Number

end Json

inductive Json where
  | null
  | boolean (b : Bool)
  | number (n : Json.Number)
  | string (text : String)
  | sequence (items : List Json)
  | object (fields : List (String × Json))

namespace Json

def describe : Json → String
  | null => "null"
  | boolean b => s!"boolean `{b}`"
  | number (.natural n) => s!"integer `{n}`"
  | number (.negative n) => s!"integer `-{n}`"
  | number (.float x) => s!"floating point `{Number.floatText x}`"
  | string _ => "string"
  | sequence _ => "sequence"
  | object _ => "map"

end Json

namespace Felt

inductive JsonError where
  | malformed (cause : Error)
  | unexpected (value : Json)

def JsonError.message : JsonError → String
  | malformed cause => cause.message
  | unexpected value =>
    s!"invalid type: {value.describe}, expected a hex (0x-prefixed) or decimal " ++
      "field element string, or an unsigned integer"

def toJson (a : Felt) : Json := .string a.toHex

def ofJson : Json → Except JsonError Felt
  | .string text => (parse text).mapError .malformed
  | .number (.natural n) => .ok (ofWord n)
  | value => .error (.unexpected value)

end Felt

end FieldSponge
