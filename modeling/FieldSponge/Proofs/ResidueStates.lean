import FieldSponge.Hades.Basic
import FieldSponge.Proofs.Primality
import FieldSponge.Proofs.Residues
import Mathlib.Algebra.BigOperators.Fin
import Mathlib.Data.Matrix.Mul

/-! States of a permutation as vectors of residues. The layer of constants is then a translation and
the mixing layer a product by a matrix. -/
namespace FieldSponge

instance : Finite Felt := Finite.of_equiv (ZMod prime) Felt.residueEquiv.symm.toEquiv

@[simp] theorem Felt.toZMod_sum (xs : List Felt) : (sum xs).toZMod = (xs.map toZMod).sum := by
  rw [toZMod_eq_of_toNat_eq (toNat_sum xs), Nat.cast_list_sum, List.map_map]
  rfl

namespace Hades

variable {width : ℕ}

def residues (s : State width) : Fin width → ZMod prime := fun i => s[i].toZMod

def ofResidues (x : Fin width → ZMod prime) : State width := Vector.ofFn fun i => Felt.ofZMod (x i)

@[simp] theorem residues_ofResidues (x : Fin width → ZMod prime) : residues (ofResidues x) = x := by
  funext i
  simp [residues, ofResidues]

@[simp] theorem ofResidues_residues (s : State width) : ofResidues (residues s) = s := by
  apply Vector.ext
  intro i hi
  simp [residues, ofResidues]

/-- A state is its residues. -/
def residuesEquiv : State width ≃ (Fin width → ZMod prime) where
  toFun := residues
  invFun := ofResidues
  left_inv := ofResidues_residues
  right_inv := residues_ofResidues

theorem residues_inj {s t : State width} : residues s = residues t ↔ s = t :=
  residuesEquiv.apply_eq_iff_eq

instance : Finite (State width) := Finite.of_equiv _ residuesEquiv.symm

theorem residues_addRow (row s : State width) :
    residues (addRow row s) = residues s + residues row := by
  funext i
  simp [residues, addRow]

/-- The entries of a matrix, row by row. -/
def residueMatrix (matrix : Vector (State width) width) :
    Matrix (Fin width) (Fin width) (ZMod prime) := .of fun i => residues matrix[i]

theorem residues_matrixProduct (matrix : Vector (State width) width) (s : State width) :
    residues (matrixProduct matrix s) = (residueMatrix matrix).mulVec (residues s) := by
  funext i
  have hrow : (matrix[i].zipWith (· * ·) s).toList = List.ofFn fun j => matrix[i][j] * s[j] := by
    rw [← Vector.toList_ofFn]
    congr 1
    apply Vector.ext
    intro j hj
    simp
  calc (matrixProduct matrix s)[i].toZMod
    _ = (Felt.sum (matrix[i].zipWith (· * ·) s).toList).toZMod := by simp [matrixProduct]
    _ = ∑ j : Fin width, matrix[i][j].toZMod * s[j].toZMod := by
      rw [hrow, Felt.toZMod_sum, List.map_ofFn, List.sum_ofFn]
      simp
    _ = (residueMatrix matrix).mulVec (residues s) i := rfl

end Hades

end FieldSponge
