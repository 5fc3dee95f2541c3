import FieldSponge.Hades.Basic
import FieldSponge.Hades.RoundConstants

/-! The Hades permutation of three elements that Starknet uses. Its power is a cube and its matrix
is the all-one matrix up to the diagonal, so a round needs no general power and no product by the
matrix. -/
namespace FieldSponge
namespace Hades
namespace Starknet

abbrev width : Nat := 3

/-- How many elements of the state a sponge adds its input to. -/
def rate : Nat := 2

def capacity : Nat := width - rate

def schedule : Schedule := ⟨4, 83⟩

def matrix : Vector (State width) width :=
  let three := Felt.ofWord 3
  #v[#v[three, 1, 1], #v[1, -1, 1], #v[1, 1, -Felt.two]]

def constants : List (State width) := canonicalConstants.map (·.map Felt.ofUInt256)

theorem length_constants : constants.length = schedule.rounds := List.length_map _

def parameters : Hades width := ⟨schedule, 2, 3, matrix, constants⟩

def cube (x : Felt) : Felt := x.square * x

/-- The product by the matrix, through the sum of the state. -/
def mix (s : State width) : State width :=
  let total := s[0] + s[1] + s[2]
  #v[total + s[0].double, total - s[1].double, total - (s[2].double + s[2])]

def addInput (s : State width) (x y : Felt) : State width := #v[s[0] + x, s[1] + y, s[2]]

def addFirst (s : State width) (x : Felt) : State width := s.set 0 (s[0] + x)

def output (s : State width) : Felt := s[0]

def layers : Layers width := ⟨cube, parameters.singleIndex, mix⟩

def permute (s : State width) : State width := layers.run schedule.kinds constants s

structure ShapeError where
  expected : Nat
  actual : Nat
deriving DecidableEq, Repr

def ShapeError.message (e : ShapeError) : String :=
  s!"permutation state must hold {e.expected} field elements, got {e.actual}"

/-- Permutes a list in place. A list that has not three elements is refused and left as it is. -/
def permuteInPlace : EStateM ShapeError (List Felt) Unit := fun s =>
  if h : s.length = width then .ok () (permute ⟨s.toArray, by simpa using h⟩).toList
  else .error ⟨width, s.length⟩ s

theorem permuteInPlace_toList (s : State width) :
    permuteInPlace s.toList = .ok () (permute s).toList := by
  rw [permuteInPlace, dif_pos s.length_toList]
  rfl

theorem permuteInPlace_of_length_ne {s : List Felt} (h : s.length ≠ width) :
    permuteInPlace s = .error ⟨width, s.length⟩ s := dif_neg h

/-- What is in the list after it has been permuted, if it was. -/
def permuteList (s : List Felt) : Except ShapeError (List Felt) :=
  match permuteInPlace s with
  | .ok () t => .ok t
  | .error e _ => .error e

theorem permuteList_toList (s : State width) : permuteList s.toList = .ok (permute s).toList := by
  rw [permuteList, permuteInPlace_toList]

theorem permuteList_of_length_ne {s : List Felt} (h : s.length ≠ width) :
    permuteList s = .error ⟨width, s.length⟩ := by
  rw [permuteList, permuteInPlace_of_length_ne h]

end Starknet
end Hades

end FieldSponge
