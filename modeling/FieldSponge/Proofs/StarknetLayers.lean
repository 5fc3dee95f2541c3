import FieldSponge.Hades.Starknet
import FieldSponge.Proofs.PowerLaws
import FieldSponge.Proofs.ResidueStates
import Mathlib.LinearAlgebra.Matrix.Notation

/-! The layers of the three-element permutation. The cube is the general power and the mix through
the sum of the state is the product by the matrix, so the permutation is the general one with the
same parameters. -/
namespace FieldSponge
namespace Hades
namespace Starknet

theorem cube_eq_powWord (x : Felt) : cube x = x.powWord 3 := by
  apply Felt.toZMod_inj.1
  rw [cube, Felt.toZMod_mul, Felt.toZMod_square, Felt.toZMod_powWord, ← pow_succ]
  rfl

theorem residueMatrix_matrix : residueMatrix matrix = !![3, 1, 1; 1, -1, 1; 1, 1, -2] := by
  have hthree : (Felt.ofWord 3).toZMod = 3 := Felt.toZMod_ofWord 3
  have htwo : Felt.two.toZMod = 2 := by
    rw [Felt.toZMod, Felt.toNat_two]
    rfl
  ext i j
  fin_cases i <;> fin_cases j <;> simp [residueMatrix, residues, matrix, hthree, htwo]

theorem mix_eq_matrixProduct (s : State width) : mix s = matrixProduct matrix s := by
  apply residues_inj.1
  rw [residues_matrixProduct, residueMatrix_matrix]
  funext i
  fin_cases i <;> simp [residues, mix, Matrix.mulVec, dotProduct, Fin.sum_univ_three] <;> ring

theorem layers_eq : layers = parameters.layers := by
  have hpower : cube = parameters.power := funext cube_eq_powWord
  have hmix : mix = parameters.mix := funext mix_eq_matrixProduct
  rw [layers, Hades.layers, hpower, hmix]

theorem permute_parameters (s : State width) : parameters.permute s = .ok (permute s) := by
  rw [Hades.permute, permute, layers_eq]
  exact if_pos length_constants

/-- A list of three elements is permuted as a state is; any other is refused and keeps its
elements. -/
theorem permuteInPlace_cases (xs : List Felt) :
    (∃ s : State width, s.toList = xs ∧ permuteInPlace xs = .ok () (permute s).toList) ∨
      (xs.length ≠ width ∧ permuteInPlace xs = .error ⟨width, xs.length⟩ xs) := by
  by_cases h : xs.length = width
  · obtain ⟨s, rfl⟩ := exists_toList_eq h
    exact .inl ⟨s, rfl, permuteInPlace_toList s⟩
  · exact .inr ⟨h, permuteInPlace_of_length_ne h⟩

/-- The cube, the mix and the permutation are those of the general permutation with eight full
rounds, 83 single rounds at the third element, the exponent three and the same tables. In place, a
list of three elements is permuted so, and a list of another length is refused with its length and
not changed. -/
theorem specialised_permutation :
    (∀ x : Felt, cube x = x.powWord 3) ∧
    (∀ s : State 3, mix s = matrixProduct matrix s) ∧
    (∀ s : State 3,
      (⟨⟨4, 83⟩, 2, 3, matrix, constants⟩ : Hades 3).permute s = .ok (permute s)) ∧
    ∀ xs : List Felt,
      (∃ s t : State 3, s.toList = xs ∧
        (⟨⟨4, 83⟩, 2, 3, matrix, constants⟩ : Hades 3).permute s = .ok t ∧
        permuteInPlace xs = .ok () t.toList) ∨
      (xs.length ≠ 3 ∧ permuteInPlace xs = .error ⟨3, xs.length⟩ xs) := by
  refine ⟨cube_eq_powWord, mix_eq_matrixProduct, permute_parameters, fun xs => ?_⟩
  rcases permuteInPlace_cases xs with ⟨s, hs, hp⟩ | h
  · exact .inl ⟨s, permute s, hs, permute_parameters s, hp⟩
  · exact .inr h

end Starknet
end Hades

end FieldSponge
