import FieldSponge.Felt.SquareRoot
import FieldSponge.UInt256.Bytes

/-! Field elements as text, as bytes and as machine integers, and back. Digits are evaluated in the
field from the left, so numerals of any length are read modulo the prime, as any 32 bytes are; the
first character that is no digit is reported with its place. An element is narrowed to a machine
integer only when its canonical value fits. Random words are taken by rejection: a candidate keeps
252 bits of four words, and candidates that are not below the prime are passed over, so every
element is equally likely. -/
namespace FieldSponge
namespace Felt

/-- Continues the value of a numeral with the digits at byte `index` of the text. -/
def readDigits (radix : Radix) (index : Nat) (value : Felt) : List Char → Except Error Felt
  | [] => .ok value
  | c :: rest =>
    match radix.digit? c with
    | some d =>
      readDigits radix (index + c.utf8Size) (value * ofWord radix.base + ofWord d) rest
    | none => .error (.parse radix (.invalidDigit index c))

def readNumeral (radix : Radix) (index : Nat) (digits : List Char) : Except Error Felt :=
  if digits.isEmpty then .error (.parse radix .empty) else readDigits radix index 0 digits

def readHex : List Char → Except Error Felt
  | '0' :: 'x' :: digits => readNumeral .hexadecimal 2 digits
  | '0' :: 'X' :: digits => readNumeral .hexadecimal 2 digits
  | digits => readNumeral .hexadecimal 0 digits

def readDecimal : List Char → Except Error Felt
  | '-' :: digits => (readNumeral .decimal 1 digits).map (- ·)
  | digits => readNumeral .decimal 0 digits

def isMarkedHex : List Char → Bool
  | '0' :: 'x' :: _ => true
  | '0' :: 'X' :: _ => true
  | _ => false

def ofHex (text : String) : Except Error Felt := readHex text.toList

/-- Reads decimal text. A minus sign gives the negated element. -/
def ofDecimal (text : String) : Except Error Felt := readDecimal text.toList

/-- Reads hexadecimal text after the mark, decimal text otherwise. -/
def parse (text : String) : Except Error Felt :=
  if isMarkedHex text.toList then ofHex text else ofDecimal text

def render (form : UInt256.Form) (a : Felt) : String := a.toUInt256.render form

def toHex (a : Felt) : String := a.toUInt256.toHex

def toDecimal (a : Felt) : String := a.toUInt256.toDecimal

/-- The canonical value, or the prime less it behind a minus sign when the value is above half. -/
def toSigned (a : Felt) : String :=
  if half < a.toUInt256 then "-" ++ (Montgomery.modulus.subBorrow a.toUInt256).1.toDecimal
  else a.toDecimal

def signedMax : Felt := ofUInt256 half

def describe (a : Felt) : String := "Felt(" ++ a.toHex ++ ")"

def byteLength : Nat := 32

/-- The bytes, when there are 32 of them. -/
def exactBytes (bytes : List UInt8) : Except Error (Vector UInt8 32) :=
  if h : bytes.length = byteLength then .ok ⟨bytes.toArray, by simpa [byteLength] using h⟩
  else .error (.length byteLength bytes.length)

def ofBytesLE (bytes : List UInt8) : Except Error Felt :=
  (exactBytes bytes).map fun v => ofUInt256 (.ofBytesLE v)

def ofBytesBE (bytes : List UInt8) : Except Error Felt :=
  (exactBytes bytes).map fun v => ofUInt256 (.ofBytesBE v)

def toBytesLE (a : Felt) : List UInt8 := a.toUInt256.toBytesLE.toList

def toBytesBE (a : Felt) : List UInt8 := a.toUInt256.toBytesBE.toList

@[simp] theorem length_toBytesLE (a : Felt) : a.toBytesLE.length = byteLength := by
  simp [toBytesLE, byteLength]

@[simp] theorem length_toBytesBE (a : Felt) : a.toBytesBE.length = byteLength := by
  simp [toBytesBE, byteLength]

theorem toBytesBE_eq_reverse (a : Felt) : a.toBytesBE = a.toBytesLE.reverse := by
  simp [toBytesBE, toBytesLE, UInt256.toBytesBE]

@[simp] theorem exactBytes_toList (v : Vector UInt8 32) : exactBytes v.toList = .ok v := by
  rw [exactBytes, dif_pos (show v.toList.length = byteLength from v.length_toList)]
  exact congrArg Except.ok (Vector.toArray_inj.1 v.toArray.toArray_toList)

theorem exactBytes_of_length_ne {bytes : List UInt8} (h : bytes.length ≠ byteLength) :
    exactBytes bytes = .error (.length byteLength bytes.length) := dif_neg h

@[simp] theorem ofBytesLE_toBytesLE (a : Felt) : ofBytesLE a.toBytesLE = .ok a := by
  rw [ofBytesLE, toBytesLE, exactBytes_toList, Except.map, UInt256.ofBytesLE_toBytesLE,
    ofUInt256_toUInt256]

@[simp] theorem ofBytesBE_toBytesBE (a : Felt) : ofBytesBE a.toBytesBE = .ok a := by
  rw [ofBytesBE, toBytesBE, exactBytes_toList, Except.map, UInt256.ofBytesBE_toBytesBE,
    ofUInt256_toUInt256]

def ofUInt8 (n : UInt8) : Felt := ofWord n.toUInt64

def ofUInt32 (n : UInt32) : Felt := ofWord n.toUInt64

@[simp] theorem toNat_ofUInt8 (n : UInt8) : (ofUInt8 n).toNat = n.toNat := by
  rw [ofUInt8, toNat_ofWord, UInt8.toNat_toUInt64]

@[simp] theorem toNat_ofUInt32 (n : UInt32) : (ofUInt32 n).toNat = n.toNat := by
  rw [ofUInt32, toNat_ofWord, UInt32.toNat_toUInt64]

def toUInt64 (a : Felt) : Except Error UInt64 :=
  let x := a.toUInt256
  if x.w1 = 0 ∧ x.w2 = 0 ∧ x.w3 = 0 then .ok x.w0 else .error (.outOfRange 64)

def narrow? (n : UInt64) : Option UInt32 := if n < 4294967296 then some n.toUInt32 else none

def toUInt32 (a : Felt) : Except Error UInt32 :=
  (a.toUInt64.toOption.bind narrow?).elim (.error (.outOfRange 32)) .ok

end Felt

/-- A stream of random words, and how many of them are used. -/
structure WordTape where
  word : Nat → UInt64
  used : Nat

namespace WordTape

def ofList (words : List UInt64) : WordTape := ⟨fun i => words.getD i 0, 0⟩

/-- The bits of the highest word of a candidate that count. -/
def topMask : UInt64 := 0x0fffffffffffffff

def candidate (t : WordTape) : UInt256 :=
  ⟨t.word t.used, t.word (t.used + 1), t.word (t.used + 2), t.word (t.used + 3) &&& topMask⟩

def advance (t : WordTape) : WordTape := { t with used := t.used + 4 }

end WordTape

namespace Felt

/-- The first candidate below the prime, if it is among the next `attempts` ones. -/
def sample? : Nat → WordTape → Option (Felt × WordTape)
  | 0, _ => none
  | attempts + 1, t =>
    if t.candidate < Montgomery.modulus then some (ofUInt256 t.candidate, t.advance)
    else sample? attempts t.advance

def samples? (attempts : Nat) : Nat → WordTape → Option (List (Felt × Nat))
  | 0, _ => some []
  | count + 1, t =>
    match sample? attempts t with
    | none => none
    | some (x, t) => (samples? attempts count t).map ((x, t.used) :: ·)

/-- Samples from the given words with zeros after them. Zeros are accepted, so a sample takes at
most one candidate beyond the words. -/
def samplesOfList? (words : List UInt64) (count : Nat) : Option (List (Felt × Nat)) :=
  samples? ((words.length + 3) / 4 + 1) count (.ofList words)

end Felt

end FieldSponge
