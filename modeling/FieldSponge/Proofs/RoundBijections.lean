import FieldSponge.Proofs.Primality
import FieldSponge.Proofs.StarknetLayers
import Mathlib.GroupTheory.Perm.Cycle.Type
import Mathlib.LinearAlgebra.Matrix.NonsingularInverse

/-! When a permutation is one. There are finitely many states, so a composition of rounds is a
bijection exactly when each of them is, and a round is one exactly when its power and its mixing
layer are. The power is one when the exponent is coprime to the order of the group of units, and the
mixing layer when its matrix is invertible. -/
namespace FieldSponge

theorem exists_pow_eq_one {n : ℕ} (h : Nat.gcd n (prime - 1) ≠ 1) :
    ∃ x : ZMod prime, x ≠ 1 ∧ x ^ n = 1 := by
  obtain ⟨q, hq, hdvd⟩ := Nat.exists_prime_and_dvd h
  have _prime : Fact q.Prime := ⟨hq⟩
  have hcard : q ∣ Fintype.card (ZMod prime)ˣ := by
    rw [ZMod.card_units]
    exact hdvd.trans (Nat.gcd_dvd_right n (prime - 1))
  obtain ⟨u, hu⟩ := exists_prime_orderOf_dvd_card q hcard
  have hpow : u ^ n = 1 :=
    orderOf_dvd_iff_pow_eq_one.1 (hu ▸ hdvd.trans (Nat.gcd_dvd_left n (prime - 1)))
  refine ⟨u, fun hone => ?_, ?_⟩
  · rw [Units.val_eq_one.1 hone, orderOf_one] at hu
    exact hq.one_lt.ne hu
  · rw [← Units.val_pow_eq_pow_val, hpow, Units.val_one]

theorem pow_injective {n : ℕ} (h : Nat.gcd n (prime - 1) = 1) :
    Function.Injective (fun x : ZMod prime => x ^ n) := by
  have hn : n ≠ 0 := by
    rintro rfl
    rw [Nat.gcd_zero_left] at h
    exact absurd h (by decide)
  have hunits : Function.Injective (fun u : (ZMod prime)ˣ => u ^ n) := by
    apply (Nat.Coprime.pow_left_bijective _).injective
    rw [Nat.card_eq_fintype_card, ZMod.card_units]
    exact Nat.Coprime.symm h
  intro x y hxy
  change x ^ n = y ^ n at hxy
  by_cases hx : x = 0
  · subst hx
    rw [zero_pow hn] at hxy
    exact (eq_zero_of_pow_eq_zero hxy.symm).symm
  · have hy : y ≠ 0 := by
      rintro rfl
      rw [zero_pow hn] at hxy
      exact hx (eq_zero_of_pow_eq_zero hxy)
    have hu : Units.mk0 x hx = Units.mk0 y hy := hunits (Units.ext (by simpa using hxy))
    exact congrArg Units.val hu

theorem pow_bijective_iff (n : ℕ) :
    Function.Bijective (fun x : ZMod prime => x ^ n) ↔ Nat.gcd n (prime - 1) = 1 := by
  rw [← Finite.injective_iff_bijective]
  constructor
  · intro h
    by_contra hgcd
    obtain ⟨x, hx, hpow⟩ := exists_pow_eq_one hgcd
    exact hx (h (hpow.trans (one_pow n).symm))
  · exact pow_injective

namespace Hades

variable {width : ℕ}

theorem addRow_bijective (row : State width) : Function.Bijective (addRow row) := by
  refine Finite.injective_iff_bijective.1 fun s t h => residues_inj.1 ?_
  have hr := congrArg residues h
  rw [residues_addRow, residues_addRow] at hr
  exact add_right_cancel hr

namespace Layers

variable (layers : Layers width)

theorem getElem_raise (kind : RoundKind) (s : State width) (i : ℕ) (hi : i < width) :
    (layers.raise kind s)[i] =
      if kind = .full ∨ i = layers.singleIndex then layers.power s[i] else s[i] := by
  cases kind with
  | full => simp [raise]
  | single =>
    by_cases h : i = layers.singleIndex
    · subst h
      simp [raise]
    · simp [raise, h, Ne.symm h]

/-- What is raised is told from other states only by its power. -/
theorem raise_set (kind : RoundKind) (s : State width) {x y : Felt}
    (h : layers.power x = layers.power y) :
    layers.raise kind (s.set layers.singleIndex x layers.singleIndex.isLt) =
      layers.raise kind (s.set layers.singleIndex y layers.singleIndex.isLt) := by
  cases kind with
  | full => simp [raise, Vector.map_set, h]
  | single => simp [raise, h]

theorem raise_bijective_iff (kind : RoundKind) :
    Function.Bijective (layers.raise kind) ↔ Function.Bijective layers.power := by
  rw [← Finite.injective_iff_bijective, ← Finite.injective_iff_bijective]
  constructor
  · intro h x y hxy
    have hs := h (layers.raise_set kind (Vector.replicate width 0) hxy)
    simpa using congrArg (·[layers.singleIndex]) hs
  · intro h s t hst
    apply Vector.ext
    intro i hi
    have hs := layers.getElem_raise kind s i hi
    rw [hst, layers.getElem_raise kind t i hi] at hs
    split at hs
    · exact (h hs).symm
    · exact hs.symm

theorem round_bijective_iff (kind : RoundKind) (row : State width) :
    Function.Bijective (layers.round kind row) ↔
      Function.Bijective layers.power ∧ Function.Bijective layers.mix := by
  have hcomp : layers.round kind row = layers.mix ∘ layers.raise kind ∘ addRow row := rfl
  rw [hcomp]
  constructor
  · intro h
    have hmix : Function.Bijective layers.mix :=
      Finite.surjective_iff_bijective.1 h.surjective.of_comp
    rw [Function.Bijective.of_comp_iff' hmix,
      Function.Bijective.of_comp_iff _ (addRow_bijective row), raise_bijective_iff] at h
    exact ⟨h, hmix⟩
  · rintro ⟨hpower, hmix⟩
    exact hmix.comp (((layers.raise_bijective_iff kind).2 hpower).comp (addRow_bijective row))

theorem run_cons (kind : RoundKind) (kinds : List RoundKind) (row : State width)
    (rows : List (State width)) : layers.run (kind :: kinds) (row :: rows) =
      layers.run kinds rows ∘ layers.round kind row := rfl

theorem run_bijective (hpower : Function.Bijective layers.power)
    (hmix : Function.Bijective layers.mix) (kinds : List RoundKind) (rows : List (State width)) :
    Function.Bijective (layers.run kinds rows) := by
  induction kinds generalizing rows with
  | nil => exact Function.bijective_id
  | cons kind kinds ih =>
    cases rows with
    | nil => exact Function.bijective_id
    | cons row rows =>
      rw [run_cons]
      exact (ih rows).comp ((layers.round_bijective_iff kind row).2 ⟨hpower, hmix⟩)

/-- One round or more is a bijection exactly when the layers are. -/
theorem run_cons_bijective_iff (kind : RoundKind) (kinds : List RoundKind) (row : State width)
    (rows : List (State width)) : Function.Bijective (layers.run (kind :: kinds) (row :: rows)) ↔
      Function.Bijective layers.power ∧ Function.Bijective layers.mix := by
  constructor
  · intro h
    rw [run_cons] at h
    exact (layers.round_bijective_iff kind row).1
      (Finite.injective_iff_bijective.1 h.injective.of_comp)
  · rintro ⟨hpower, hmix⟩
    exact layers.run_bijective hpower hmix _ _

end Layers

theorem power_bijective_iff (h : Hades width) :
    Function.Bijective h.power ↔ Nat.gcd h.exponent.toNat (prime - 1) = 1 := by
  have hcomp : Felt.residueEquiv ∘ h.power = (· ^ h.exponent.toNat) ∘ Felt.residueEquiv :=
    funext fun x => x.toZMod_powWord h.exponent
  rw [← Function.Bijective.of_comp_iff' Felt.residueEquiv.bijective, hcomp,
    Function.Bijective.of_comp_iff _ Felt.residueEquiv.bijective, pow_bijective_iff]

theorem mix_bijective_iff (h : Hades width) :
    Function.Bijective h.mix ↔ IsUnit (residueMatrix h.matrix) := by
  have hcomp : residuesEquiv ∘ h.mix = (residueMatrix h.matrix).mulVec ∘ residuesEquiv :=
    funext (residues_matrixProduct h.matrix)
  rw [← Function.Bijective.of_comp_iff' residuesEquiv.bijective, hcomp,
    Function.Bijective.of_comp_iff _ residuesEquiv.bijective, ← Finite.injective_iff_bijective,
    Matrix.mulVec_injective_iff_isUnit]

/-- With a row of constants for each of one round or more, the rounds of a permutation are a
bijection when its exponent is coprime to the number of units and its matrix is invertible. -/
theorem run_bijective_iff (h : Hades width) (hrows : h.constants.length = h.schedule.rounds)
    (hrounds : 0 < h.schedule.rounds) :
    Function.Bijective (h.layers.run h.schedule.kinds h.constants) ↔
      Nat.gcd h.exponent.toNat (prime - 1) = 1 ∧ IsUnit (residueMatrix h.matrix) := by
  obtain ⟨row, rows, hr⟩ := List.exists_cons_of_length_pos (hrows ▸ hrounds)
  obtain ⟨kind, kinds, hk⟩ := List.exists_cons_of_length_pos (h.schedule.length_kinds ▸ hrounds)
  rw [hk, hr, Layers.run_cons_bijective_iff]
  exact and_congr h.power_bijective_iff h.mix_bijective_iff

namespace Starknet

theorem isUnit_residueMatrix : IsUnit (residueMatrix matrix) := by
  have hdet : (residueMatrix matrix).det = 8 := by
    rw [residueMatrix_matrix, Matrix.det_fin_three]
    simp
    ring
  have hne : (8 : ZMod prime) ≠ 0 := by
    intro h
    have hdvd : prime ∣ 8 := (ZMod.natCast_eq_zero_iff 8 prime).1 h
    exact absurd (Nat.le_of_dvd (by decide) hdvd) (by decide)
  rw [Matrix.isUnit_iff_isUnit_det, hdet]
  exact IsUnit.mk0 8 hne

theorem permute_bijective : Function.Bijective permute := by
  have hrun := parameters.run_bijective_iff length_constants (by decide)
  rw [← layers_eq] at hrun
  exact hrun.2 ⟨by decide, isUnit_residueMatrix⟩

end Starknet

/-- With a row of constants for each of one round or more, every state is permuted, and the map is a
bijection exactly when the exponent is coprime to the number of units and the matrix is invertible
modulo the prime. The permutation of three elements is a bijection. -/
theorem bijective_iff_coprime_and_isUnit :
    (∀ {width : ℕ} (h : Hades width),
      h.constants.length = h.schedule.rounds → 0 < h.schedule.rounds →
      ∃ f : State width → State width, (∀ s, h.permute s = .ok (f s)) ∧
        (Function.Bijective f ↔
          Nat.gcd h.exponent.toNat (prime - 1) = 1 ∧ IsUnit (residueMatrix h.matrix))) ∧
    Function.Bijective Starknet.permute := by
  refine ⟨fun h hrows hrounds => ?_, Starknet.permute_bijective⟩
  exact ⟨_, fun s => if_pos hrows, h.run_bijective_iff hrows hrounds⟩

/-- Two elements are squared on either side of a round that squares the second one only. -/
def squaring : Hades 2 :=
  ⟨⟨1, 1⟩, 1, 2, #v[#v[Felt.two, 1], #v[1, 1]],
    [#v[1, Felt.two], #v[Felt.two, 1], #v[Felt.max, 1]]⟩

theorem squaring_not_bijective :
    squaring.constants.length = squaring.schedule.rounds ∧ 0 < squaring.schedule.rounds ∧
    ∃ f : State 2 → State 2, (∀ s, squaring.permute s = .ok (f s)) ∧ ¬ Function.Bijective f := by
  obtain ⟨f, hpermute, hiff⟩ :=
    bijective_iff_coprime_and_isUnit.1 squaring (by decide) (by decide)
  refine ⟨by decide, by decide, f, hpermute, fun hf => ?_⟩
  exact absurd (hiff.1 hf).1 (by decide)

end Hades

end FieldSponge
