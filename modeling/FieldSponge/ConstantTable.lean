import FieldSponge.Felt.Basic
import FieldSponge.UInt256.Bytes

/-! Tables of round constants. Constant `i` is the digest of a name followed by the numeral of `i`,
read as a big-endian integer modulo the prime. The constants fill the rows of the table in order. -/
namespace FieldSponge

abbrev Digest := List UInt8 → Vector UInt8 32

structure ConstantTable where
  name : String
  rounds : Nat
  width : Nat
deriving DecidableEq, Repr

namespace ConstantTable

/-- The text that constant `i` is the digest of. -/
def seed (name : String) (i : Nat) : String := name ++ Nat.repr i

def constant (digest : Digest) (name : String) (i : Nat) : Felt :=
  Felt.ofUInt256 (.ofBytesBE (digest (seed name i).toUTF8.toList))

def entry (t : ConstantTable) (digest : Digest) (round column : Nat) : Felt :=
  constant digest t.name (t.width * round + column)

def rows (t : ConstantTable) (digest : Digest) : List (List Felt) :=
  (List.range t.rounds).map fun round => (List.range t.width).map fun column =>
    t.entry digest round column

@[simp] theorem length_rows (t : ConstantTable) (digest : Digest) :
    (t.rows digest).length = t.rounds := by
  simp [rows]

def wordText (w : UInt64) : List Char := Numeral.hexMark ++ Numeral.padded 16 16 w.toNat

/-- The words of the canonical value, the least significant first. -/
def entryText (a : Felt) : List Char :=
  let x := a.toUInt256
  "        [".toList ++ wordText x.w0 ++ ", ".toList ++ wordText x.w1 ++ ", ".toList
    ++ wordText x.w2 ++ ", ".toList ++ wordText x.w3 ++ "],\n".toList

def rowText (row : List Felt) : List Char :=
  "    [\n".toList ++ row.flatMap entryText ++ "    ],\n".toList

def header (t : ConstantTable) : String :=
  "#[rustfmt::skip]\npub(crate) const ROUND_CONSTANTS_CANONICAL: [[[u64; 4]; " ++ Nat.repr t.width
    ++ "]; " ++ Nat.repr t.rounds ++ "] = [\n"

def render (t : ConstantTable) (digest : Digest) : String :=
  String.ofList (t.header.toList ++ (t.rows digest).flatMap rowText ++ "];\n".toList)

inductive Invalid where
  | narrow (width : Nat)
  | noRounds
deriving DecidableEq, Repr

def Invalid.message : Invalid → String
  | narrow width => s!"width must be at least 2, got {width}"
  | noRounds => "at least one round is required"

/-- The text of a table of at least two columns and one row. The width is looked at first. -/
def generate (t : ConstantTable) (digest : Digest) : Except Invalid String :=
  if t.width < 2 then .error (.narrow t.width)
  else if t.rounds = 0 then .error .noRounds
  else .ok (t.render digest)

end ConstantTable

end FieldSponge
