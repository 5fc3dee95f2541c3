import FieldSponge.Felt.Arithmetic

/-! The Hades permutation. A round adds a row of constants to the state, raises elements to a power
and multiplies by a matrix. Full rounds, on either side, raise every element; the rounds between
them raise one element only. -/
namespace FieldSponge
namespace Hades

abbrev State (width : Nat) := Vector Felt width

theorem exists_toList_eq {width : Nat} {xs : List Felt} (h : xs.length = width) :
    ∃ s : State width, s.toList = xs :=
  ⟨⟨xs.toArray, by simpa using h⟩, by simp⟩

inductive RoundKind where
  | full
  | single
deriving DecidableEq, Repr

/-- How many full rounds stand on each side of how many rounds with a single power. -/
structure Schedule where
  fullPerSide : Nat
  singles : Nat
deriving DecidableEq, Repr

namespace Schedule

def kinds (s : Schedule) : List RoundKind :=
  List.replicate s.fullPerSide .full ++ List.replicate s.singles .single
    ++ List.replicate s.fullPerSide .full

def rounds (s : Schedule) : Nat := 2 * s.fullPerSide + s.singles

@[simp] theorem length_kinds (s : Schedule) : s.kinds.length = s.rounds := by
  simp only [kinds, rounds, List.length_append, List.length_replicate]
  omega

end Schedule

/-- The layers of a round that follow the constants. -/
structure Layers (width : Nat) where
  power : Felt → Felt
  singleIndex : Fin width
  mix : State width → State width

def addRow {width : Nat} (row s : State width) : State width := s.zipWith (· + ·) row

namespace Layers

variable {width : Nat}

def raise (layers : Layers width) : RoundKind → State width → State width
  | .full, s => s.map layers.power
  | .single, s => s.set layers.singleIndex (layers.power s[layers.singleIndex])

def round (layers : Layers width) (kind : RoundKind) (row s : State width) : State width :=
  layers.mix (layers.raise kind (addRow row s))

/-- One round for each kind in turn, with the row of constants beside it. -/
def run (layers : Layers width) (kinds : List RoundKind) (rows : List (State width))
    (s : State width) : State width :=
  (kinds.zip rows).foldl (fun s (kind, row) => layers.round kind row s) s

end Layers

def matrixProduct {width : Nat} (matrix : Vector (State width) width) (s : State width) :
    State width :=
  matrix.map fun row => Felt.sum (row.zipWith (· * ·) s).toList

structure RowMismatch where
  rows : Nat
  rounds : Nat
deriving DecidableEq, Repr

def RowMismatch.message (e : RowMismatch) : String :=
  "assertion `left == right` failed: round constant table length must match the round count\n" ++
    s!"  left: {e.rows}\n right: {e.rounds}"

end Hades

/-- The parameters of a permutation: the rounds, the index of the element that single rounds raise,
the exponent, the matrix and the table of constants. -/
structure Hades (width : Nat) where
  schedule : Hades.Schedule
  singleIndex : Fin width
  exponent : UInt64
  matrix : Vector (Hades.State width) width
  constants : List (Hades.State width)

namespace Hades

variable {width : Nat}

def power (h : Hades width) (x : Felt) : Felt := x.powWord h.exponent

def mix (h : Hades width) (s : State width) : State width := matrixProduct h.matrix s

def layers (h : Hades width) : Layers width := ⟨h.power, h.singleIndex, h.mix⟩

/-- The permuted state, when the table has one row for each round. -/
def permute (h : Hades width) (s : State width) : Except RowMismatch (State width) :=
  if h.constants.length = h.schedule.rounds then
    .ok (h.layers.run h.schedule.kinds h.constants s)
  else .error ⟨h.constants.length, h.schedule.rounds⟩

end Hades

end FieldSponge
