import FieldSponge.Proofs.AbsorbedPairs
import FieldSponge.Proofs.RoundBijections

/-! States that are never merged. The permutation and the addition of a pair are bijections of the
states, so what follows a pair keeps different states apart, and different pairs lead from one state
to different ones. The inputs of one, of two and of any number of elements are kept apart by the
third element of the state, which no input is added to. -/
namespace FieldSponge
namespace Hades

variable {width : ℕ}

theorem addRow_left_injective (s : State width) : Function.Injective (addRow · s) := by
  intro row row' h
  have hr := congrArg residues h
  rw [residues_addRow, residues_addRow] at hr
  exact residues_inj.1 (add_left_cancel hr)

namespace Starknet

theorem addInput_eq_addRow (s : State Starknet.width) (x y : Felt) :
    addInput s x y = addRow #v[x, y, 0] s := by
  apply Vector.ext
  intro i hi
  match i with
  | 0 | 1 => simp [addInput, addRow]
  | 2 => simp [addInput, addRow, Felt.add_zero]

end Starknet

end Hades

namespace Poseidon

open Hades.Starknet (addInput_eq_addRow permute_bijective)

theorem absorb_bijective (pair : Felt × Felt) : Function.Bijective (absorb · pair) := by
  have hcomp : (absorb · pair) = Hades.Starknet.permute ∘ Hades.addRow #v[pair.1, pair.2, 0] := by
    funext s
    rw [absorb, permute, addInput_eq_addRow, Function.comp]
  rw [hcomp]
  exact permute_bijective.comp (Hades.addRow_bijective _)

theorem absorb_injective (s : State) : Function.Injective (absorb s) := by
  intro pair pair' h
  rw [absorb, absorb, permute, permute, addInput_eq_addRow, addInput_eq_addRow] at h
  have hrow := Hades.addRow_left_injective s (permute_bijective.injective h)
  exact Prod.ext (congrArg (·[0]) hrow) (congrArg (·[1]) hrow)

theorem absorbAll_bijective (ps : List (Felt × Felt)) : Function.Bijective (absorbAll · ps) := by
  induction ps with
  | nil => exact Function.bijective_id
  | cons p ps ih => exact ih.comp (absorb_bijective p)

/-- Lists of pairs that differ in one pair lead from one state to different ones. -/
theorem absorbAll_ne {ps qs : List (Felt × Felt)} (hl : ps.length = qs.length) (hne : ps ≠ qs)
    (k : ℕ) (h : ∀ j, j ≠ k → ps[j]? = qs[j]?) (s : State) : absorbAll s ps ≠ absorbAll s qs := by
  induction ps generalizing qs k s with
  | nil => exact absurd (List.length_eq_zero_iff.1 hl.symm).symm hne
  | cons p ps ih =>
    obtain ⟨q, qs, rfl⟩ := List.exists_cons_of_length_eq_add_one hl.symm
    cases k with
    | zero =>
      have htail : ps = qs := List.ext_getElem? fun j => h (j + 1) (Nat.succ_ne_zero j)
      subst htail
      intro heq
      have hp := absorb_injective s ((absorbAll_bijective ps).injective heq)
      exact hne (by rw [hp])
    | succ k =>
      have hp : p = q := Option.some.inj (h 0 (Nat.succ_ne_zero k).symm)
      subst hp
      refine ih (Nat.succ.inj hl) (fun htail => hne (by rw [htail])) k (fun j hj => ?_) _
      exact h (j + 1) (fun hk => hj (Nat.succ.inj hk))

theorem getElem?_pairs (xs : List Felt) (j : ℕ) :
    (pairs xs)[j]? = xs[2 * j]?.bind fun a => xs[2 * j + 1]?.map (a, ·) := by
  fun_induction pairs xs generalizing j with
  | case1 a b rest ih =>
    cases j with
    | zero => rfl
    | succ j => exact ih j
  | case2 xs h =>
    rcases xs with _ | ⟨a, _ | ⟨b, rest⟩⟩
    · rfl
    · cases j <;> rfl
    · exact absurd rfl (h a b rest)

theorem getElem?_pairs_pad {xs ys : List Felt} (hl : xs.length = ys.length) {j : ℕ}
    (h : ∀ i, i / 2 = j → xs[i]? = ys[i]?) : (pairs (pad xs))[j]? = (pairs (pad ys))[j]? := by
  have hpad : ∀ i, i / 2 = j → (pad xs)[i]? = (pad ys)[i]? := by
    intro i hi
    rw [pad_eq, pad_eq, List.getElem?_append, List.getElem?_append, h i hi, hl]
  rw [getElem?_pairs, getElem?_pairs, hpad (2 * j) (by omega), hpad (2 * j + 1) (by omega)]

/-- Lists that differ in one pair lead from one state to different ones. -/
theorem absorbAll_pairs_pad_ne {xs ys : List Felt} (hl : xs.length = ys.length) (hne : xs ≠ ys)
    (k : ℕ) (h : ∀ i, i / 2 ≠ k → xs[i]? = ys[i]?) (s : State) :
    absorbAll s (pairs (pad xs)) ≠ absorbAll s (pairs (pad ys)) := by
  refine absorbAll_ne ?_ (pairs_pad_injective.ne hne) k (fun j hj => ?_) s
  · rw [length_pairs, length_pairs, length_pad, length_pad, hl]
  · exact getElem?_pairs_pad hl fun i hi => h i (hi ▸ hj)

theorem Hasher.extend_of_even (s : State) : ∀ {ws : List Felt}, ws.length % 2 = 0 →
    (⟨s, none⟩ : Hasher).extend ws = ⟨absorbAll s (pairs ws), none⟩
  | [], _ => rfl
  | [_], h => absurd h Nat.one_ne_zero
  | a :: b :: rest, h => by
    have hrest : rest.length % 2 = 0 := (Nat.add_mod_right rest.length 2).symm.trans h
    exact extend_of_even (absorb s (a, b)) hrest

theorem permute_inj {x y z x' y' z' : Felt} :
    permute #v[x, y, z] = permute #v[x', y', z'] ↔ x = x' ∧ y = y' ∧ z = z' := by
  rw [permute, permute, permute_bijective.injective.eq_iff]
  constructor
  · intro h
    exact ⟨congrArg (·[0]) h, congrArg (·[1]) h, congrArg (·[2]) h⟩
  · rintro ⟨hx, hy, hz⟩
    rw [hx, hy, hz]

theorem pairState_inj {x y x' y' : Felt} :
    pairState x y = pairState x' y' ↔ x = x' ∧ y = y' := by
  rw [pairState, pairState, permute_inj, eq_self, and_true]

theorem singleState_injective : Function.Injective singleState := by
  intro x y h
  rw [singleState, singleState, permute_inj] at h
  exact h.1

theorem addInput_start (x y : Felt) : Hades.Starknet.addInput start x y = #v[x, y, 0] := by
  apply Vector.ext
  intro i hi
  match i with
  | 0 | 1 => simp [Hades.Starknet.addInput, start, Felt.zero_add]
  | 2 => simp [Hades.Starknet.addInput, start]

/-- A list of at most one element fills one pair. -/
theorem exists_pad_eq {xs : List Felt} (h : xs.length ≤ 1) : ∃ a b : Felt, pad xs = [a, b] := by
  apply List.length_eq_two.1
  rw [length_pad, Nat.div_eq_of_lt (Nat.lt_succ_of_le h)]

theorem listState_eq_permute {xs : List Felt} {a b : Felt} (h : pad xs = [a, b]) :
    listState xs = permute #v[a, b, 0] := by
  have hpairs : pairs [a, b] = [(a, b)] := rfl
  rw [listState, h, hpairs, absorbAll, List.foldl_cons, List.foldl_nil, absorb, addInput_start]

theorem listState_injOn : Set.InjOn listState {xs | xs.length ≤ 1} := by
  intro xs hx ys hy h
  obtain ⟨a, b, hab⟩ := exists_pad_eq hx
  obtain ⟨c, d, hcd⟩ := exists_pad_eq hy
  rw [listState_eq_permute hab, listState_eq_permute hcd, permute_inj] at h
  obtain ⟨hac, hbd, -⟩ := h
  exact pad_injective (by rw [hab, hcd, hac, hbd])

theorem pairState_ne_singleState (x y z : Felt) : pairState x y ≠ singleState z := by
  rw [pairState, singleState, Ne, permute_inj]
  rintro ⟨-, -, hthird⟩
  exact absurd hthird (by decide)

theorem pairState_ne_listState (x y : Felt) {xs : List Felt} (h : xs.length ≤ 1) :
    pairState x y ≠ listState xs := by
  obtain ⟨a, b, hab⟩ := exists_pad_eq h
  rw [pairState, listState_eq_permute hab, Ne, permute_inj]
  rintro ⟨-, -, hthird⟩
  exact absurd hthird (by decide)

theorem singleState_ne_listState (z : Felt) {xs : List Felt} (h : xs.length ≤ 1) :
    singleState z ≠ listState xs := by
  obtain ⟨a, b, hab⟩ := exists_pad_eq h
  rw [singleState, listState_eq_permute hab, Ne, permute_inj]
  rintro ⟨-, -, hthird⟩
  exact absurd hthird (by decide)

/-- With nothing that waits, to absorb a list of even length is a bijection of the states, and two
pairs lead from one state to different ones. So lists of one length that differ inside one aligned
pair end in different states, all at once or one by one. The states behind an input of two elements,
of one, and of a list of at most one are never the same, and each of them is told by its input. -/
theorem states_separated :
    (∀ ws : List Felt, ws.length % 2 = 0 →
      (∀ s : State, ((⟨s, none⟩ : Hasher).extend ws).pending = none) ∧
      Function.Bijective fun s : State => ((⟨s, none⟩ : Hasher).extend ws).state) ∧
    (∀ s : State, Function.Injective fun pair : Felt × Felt =>
      (((⟨s, none⟩ : Hasher).update pair.1).update pair.2).state) ∧
    (∀ xs ys : List Felt, xs.length = ys.length → xs ≠ ys →
      ∀ k : ℕ, (∀ i, i / 2 ≠ k → xs[i]? = ys[i]?) →
        listState xs ≠ listState ys ∧
        ∀ s : State, ((⟨s, none⟩ : Hasher).extend xs).finalState ≠
          ((⟨s, none⟩ : Hasher).extend ys).finalState) ∧
    (∀ (x y z : Felt) (xs : List Felt), xs.length ≤ 1 →
      pairState x y ≠ singleState z ∧ pairState x y ≠ listState xs ∧
      singleState z ≠ listState xs) ∧
    Function.Injective (fun pair : Felt × Felt => pairState pair.1 pair.2) ∧
    Function.Injective singleState ∧
    Set.InjOn listState {xs | xs.length ≤ 1} := by
  refine ⟨fun ws hws => ⟨fun s => ?_, ?_⟩, absorb_injective,
    fun xs ys hl hne k h => ⟨?_, fun s => ?_⟩, fun x y z xs hxs => ?_, ?_, singleState_injective,
    listState_injOn⟩
  · rw [Hasher.extend_of_even s hws]
  · simpa only [Hasher.extend_of_even _ hws] using absorbAll_bijective (pairs ws)
  · exact absorbAll_pairs_pad_ne hl hne k h start
  · rw [Hasher.finalState_extend, Hasher.finalState_extend]
    exact absorbAll_pairs_pad_ne hl hne k h s
  · exact ⟨pairState_ne_singleState x y z, pairState_ne_listState x y hxs,
      singleState_ne_listState z hxs⟩
  · exact fun _ _ h => Prod.ext (pairState_inj.1 h).1 (pairState_inj.1 h).2

end Poseidon

end FieldSponge
