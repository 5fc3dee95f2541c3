import FieldSponge.ConstantTable
import FieldSponge.Sha256

/-! The command line that prints a table of round constants: a name, a number of rounds and a width,
each given at most once, and flags for more messages, which do not change the table. -/
namespace FieldSponge
namespace CommandLine

inductive Setting where
  | name
  | rounds
  | width
deriving DecidableEq, Repr

namespace Setting

def all : List Setting := [.name, .rounds, .width]

def flag : Setting → String
  | name => "--name"
  | rounds => "--rounds"
  | width => "--width"

/-- The value in an argument that joins it to the flag. Any number of equality signs joins them. -/
def joined? (s : Setting) (argument : String) : Option String :=
  let mark := s.flag.toList ++ ['=']
  if mark.isPrefixOf argument.toList then
    some (String.ofList ((argument.toList.drop mark.length).dropWhile (· == '=')))
  else none

end Setting

structure Arguments where
  name? : Option String
  rounds? : Option String
  width? : Option String
  verbosity : Nat

namespace Arguments

def empty : Arguments := ⟨none, none, none, 0⟩

def set (a : Arguments) (value : String) : Setting → Option Arguments
  | .name => if a.name?.isSome then none else some { a with name? := some value }
  | .rounds => if a.rounds?.isSome then none else some { a with rounds? := some value }
  | .width => if a.width?.isSome then none else some { a with width? := some value }

def verbosityOf (argument : String) : Nat :=
  if argument = "--verbose" then 1
  else match argument.toList with
    | '-' :: letters => if letters.all (· == 'v') then letters.length else 0
    | _ => 0

/-- A value may stand apart from its flag if it does not look like a flag. -/
def isValue (argument : String) : Bool := argument = "-" || argument.toList.head? != some '-'

def read (a : Arguments) : List String → Option Arguments
  | [] => some a
  | argument :: rest =>
    if 0 < verbosityOf argument then
      read { a with verbosity := a.verbosity + verbosityOf argument } rest
    else match Setting.all.findSome? fun s => (s.joined? argument).map (s, ·) with
      | some (s, value) => (a.set value s).bind fun a => read a rest
      | none =>
        match Setting.all.find? fun s => s.flag = argument, rest with
        | some s, value :: rest =>
          if isValue value then (a.set value s).bind fun a => read a rest else none
        | _, _ => none

end Arguments

/-- A number of 64 bits in decimal digits, with or without a plus sign. -/
def count? (text : String) : Option Nat :=
  let digits := match text.toList with
    | '+' :: digits => digits
    | digits => digits
  if digits.isEmpty || !digits.all Char.isDigit then none
  else
    let n := Nat.ofDigitChars 10 digits 0
    if n < UInt64.size then some n else none

def Arguments.table? (a : Arguments) : Option ConstantTable :=
  match count? (a.rounds?.getD "91"), count? (a.width?.getD "3") with
  | some rounds, some width => some ⟨a.name?.getD "Hades", rounds, width⟩
  | _, _ => none

inductive Failure where
  | usage
  | invalid (cause : ConstantTable.Invalid)
deriving DecidableEq, Repr

def run (arguments : List String) : Except Failure String :=
  match (Arguments.empty.read arguments).bind Arguments.table? with
  | none => .error .usage
  | some table => (table.generate Sha256.digest).mapError .invalid

end CommandLine

end FieldSponge
