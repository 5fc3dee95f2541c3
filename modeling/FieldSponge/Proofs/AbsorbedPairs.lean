import FieldSponge.Proofs.Absorption
import Mathlib.Data.List.DropRight

/-! Which pairs go into a sponge. A sponge handles its state by a few operations only, so it runs on
anything that has them: on states it computes the hashes, and on a tape it leaves the pairs that it
adds between one permutation and the next. All at once or one by one, these are the pairs of the
padded list, and a list is read back from them. -/
namespace FieldSponge

protected theorem Felt.zero_add (a : Felt) : 0 + a = a := by
  rw [← Felt.toNat_inj, Felt.toNat_add, Felt.toNat_zero, Nat.zero_add, Nat.mod_eq_of_lt a.toNat_lt]

namespace Poseidon

/-- What a sponge does to its state. -/
structure Sponge (σ : Type) where
  start : σ
  addInput : σ → Felt → Felt → σ
  addFirst : σ → Felt → σ
  permute : σ → σ

structure Fed (σ : Type) where
  state : σ
  pending : Option Felt

namespace Sponge

variable {σ : Type} (S : Sponge σ)

def absorb (s : σ) (pair : Felt × Felt) : σ := S.permute (S.addInput s pair.1 pair.2)

def atOnce (xs : List Felt) : σ := (pairs (pad xs)).foldl S.absorb S.start

def update (h : Fed σ) (x : Felt) : Fed σ :=
  match h.pending with
  | none => { h with pending := some x }
  | some w => ⟨S.absorb h.state (w, x), none⟩

def finish (h : Fed σ) : σ :=
  match h.pending with
  | none => S.permute (S.addFirst h.state 1)
  | some w => S.absorb h.state (w, 1)

/-- The state after a list that is absorbed one by one, with the padding at the end. -/
def oneByOne (xs : List Felt) : σ := S.finish (xs.foldl S.update ⟨S.start, none⟩)

end Sponge

@[simp] theorem pad_nil : pad [] = [1, 0] := pad_eq []

@[simp] theorem pad_singleton (x : Felt) : pad [x] = [x, 1] := pad_eq [x]

@[simp] theorem pad_cons_cons (a b : Felt) (xs : List Felt) :
    pad (a :: b :: xs) = a :: b :: pad xs := by
  have hl : (a :: b :: xs).length % 2 = xs.length % 2 := Nat.add_mod_right xs.length 2
  rw [pad_eq, pad_eq, hl, List.cons_append, List.cons_append]

namespace Sponge

variable {σ : Type} (S : Sponge σ)

/-- What is absorbed one by one are the pairs of the padded list, in a sponge that adds to the first
element alone by adding nothing to the second. -/
theorem finish_foldl_update (hS : ∀ s x, S.addFirst s x = S.addInput s x 0) (s : σ) :
    ∀ xs : List Felt, S.finish (xs.foldl S.update ⟨s, none⟩) = (pairs (pad xs)).foldl S.absorb s
  | [] => by
    rw [pad_nil]
    exact congrArg S.permute (hS s 1)
  | [x] => by
    rw [pad_singleton]
    rfl
  | a :: b :: rest => by
    have ih := finish_foldl_update hS (S.absorb s (a, b)) rest
    rw [pad_cons_cons]
    exact ih

theorem oneByOne_eq_atOnce (hS : ∀ s x, S.addFirst s x = S.addInput s x 0) (xs : List Felt) :
    S.oneByOne xs = S.atOnce xs := S.finish_foldl_update hS S.start xs

end Sponge

def stateSponge : Sponge State := ⟨start, Hades.Starknet.addInput, Hades.Starknet.addFirst, permute⟩

theorem stateSponge_absorb : stateSponge.absorb = absorb := by
  funext s pair
  rw [Sponge.absorb, absorb, stateSponge]

theorem stateSponge_atOnce (xs : List Felt) : stateSponge.atOnce xs = listState xs := by
  rw [Sponge.atOnce, stateSponge_absorb, listState, absorbAll, stateSponge]

theorem foldl_update_stateSponge (h : Hasher) (xs : List Felt) :
    xs.foldl stateSponge.update ⟨h.state, h.pending⟩ =
      ⟨(h.extend xs).state, (h.extend xs).pending⟩ := by
  induction xs generalizing h with
  | nil => rfl
  | cons x xs ih =>
    have hx : stateSponge.update ⟨h.state, h.pending⟩ x =
        ⟨(h.update x).state, (h.update x).pending⟩ := by
      rcases h with ⟨s, _ | w⟩ <;> rfl
    rw [List.foldl_cons, hx, ih, Hasher.extend_cons]

theorem stateSponge_finish (h : Hasher) :
    stateSponge.finish ⟨h.state, h.pending⟩ = h.finalState := by
  rcases h with ⟨s, _ | w⟩ <;> rfl

theorem stateSponge_oneByOne (xs : List Felt) :
    stateSponge.oneByOne xs = (Hasher.empty.extend xs).finalState := by
  rw [← stateSponge_finish, ← foldl_update_stateSponge]
  rfl

theorem Hasher.finalState_extend (s : State) (xs : List Felt) :
    ((⟨s, none⟩ : Hasher).extend xs).finalState = absorbAll s (pairs (pad xs)) := by
  have hfinish := stateSponge.finish_foldl_update Hades.Starknet.addFirst_eq_addInput s xs
  rw [stateSponge_absorb] at hfinish
  rw [← stateSponge_finish, ← foldl_update_stateSponge, hfinish, absorbAll]

/-- The pairs that were added between permutations, and what was added after the last of them. -/
structure Tape where
  pairs : List (Felt × Felt)
  added : Felt × Felt

def tapeSponge : Sponge Tape where
  start := ⟨[], (0, 0)⟩
  addInput t x y := { t with added := (t.added.1 + x, t.added.2 + y) }
  addFirst t x := { t with added := (t.added.1 + x, t.added.2) }
  permute t := ⟨t.pairs ++ [t.added], (0, 0)⟩

theorem tapeSponge_addFirst (t : Tape) (x : Felt) :
    tapeSponge.addFirst t x = tapeSponge.addInput t x 0 := by
  simp only [tapeSponge, Felt.add_zero]

theorem tapeSponge_absorb (ps : List (Felt × Felt)) (pair : Felt × Felt) :
    tapeSponge.absorb ⟨ps, (0, 0)⟩ pair = ⟨ps ++ [pair], (0, 0)⟩ := by
  simp only [Sponge.absorb, tapeSponge, Felt.zero_add]

theorem foldl_tapeSponge_absorb (ps qs : List (Felt × Felt)) :
    qs.foldl tapeSponge.absorb ⟨ps, (0, 0)⟩ = ⟨ps ++ qs, (0, 0)⟩ := by
  induction qs generalizing ps with
  | nil => rw [List.foldl_nil, List.append_nil]
  | cons q qs ih =>
    rw [List.foldl_cons, tapeSponge_absorb, ih, List.append_assoc, List.singleton_append]

theorem tapeSponge_atOnce (xs : List Felt) : tapeSponge.atOnce xs = ⟨pairs (pad xs), (0, 0)⟩ :=
  foldl_tapeSponge_absorb [] _

theorem tapeSponge_oneByOne (xs : List Felt) :
    tapeSponge.oneByOne xs = ⟨pairs (pad xs), (0, 0)⟩ := by
  rw [tapeSponge.oneByOne_eq_atOnce tapeSponge_addFirst, tapeSponge_atOnce]

theorem unpair_pairs_pad (xs : List Felt) : unpair (pairs (pad xs)) = pad xs :=
  flatMap_pairs (by rw [length_pad, Nat.mul_mod_right])

/-- What stands before the last element that is not zero. -/
def unpad (xs : List Felt) : List Felt := (xs.rdropWhile (· = 0)).dropLast

/-- The one of the padding is the last element of a padded list that is not zero. -/
theorem unpad_pad (xs : List Felt) : unpad (pad xs) = xs := by
  have hone : (xs ++ [1]).rdropWhile (· = 0) = xs ++ [1] :=
    List.rdropWhile_concat_neg _ _ _ (by decide)
  rw [unpad, pad_eq]
  split
  · have hzero := List.rdropWhile_concat_pos (· = 0) (xs ++ [1]) (0 : Felt) (by decide)
    rw [List.append_assoc] at hzero
    rw [← List.singleton_append, hzero, hone, List.dropLast_concat]
  · rw [hone, List.dropLast_concat]

theorem pad_injective : Function.Injective pad :=
  Function.LeftInverse.injective unpad_pad

theorem pairs_pad_injective : Function.Injective fun xs : List Felt => pairs (pad xs) := by
  intro xs ys h
  apply pad_injective
  rw [← unpair_pairs_pad xs, ← unpair_pairs_pad ys]
  exact congrArg unpair h

/-- All at once and one by one, the same pairs go into the sponge and nothing is left behind. There
is one more of them than the list has pairs, and they hold its elements in order, then a one, then a
zero when that makes their number even. Different lists give different pairs. -/
theorem absorbed_pairs_injective :
    (∀ xs : List Felt, stateSponge.atOnce xs = listState xs ∧
      stateSponge.oneByOne xs = (Hasher.empty.extend xs).finalState ∧
      ∃ ps : List (Felt × Felt),
        tapeSponge.atOnce xs = ⟨ps, (0, 0)⟩ ∧
        tapeSponge.oneByOne xs = ⟨ps, (0, 0)⟩ ∧
        ps.length = xs.length / 2 + 1 ∧
        unpair ps = xs ++ [1] ++ (if xs.length % 2 = 0 then [0] else []) ∧
        hashMany xs = digest (absorbAll start ps) ∧
        (Hasher.empty.extend xs).finalize = digest (absorbAll start ps)) ∧
    Function.Injective (fun xs : List Felt => (tapeSponge.atOnce xs).pairs) ∧
    Function.Injective (fun xs : List Felt => (tapeSponge.oneByOne xs).pairs) := by
  refine ⟨fun xs => ⟨stateSponge_atOnce xs, stateSponge_oneByOne xs, pairs (pad xs),
    tapeSponge_atOnce xs, tapeSponge_oneByOne xs, ?_, ?_, ?_, ?_⟩, ?_, ?_⟩
  · rw [length_pairs, length_pad, Nat.mul_div_cancel_left _ (by decide)]
  · rw [unpair_pairs_pad, pad_eq, List.append_assoc, List.singleton_append]
  · rw [hashMany, listState]
  · rw [Hasher.finalize, Hasher.empty, Hasher.finalState_extend]
  · simpa only [tapeSponge_atOnce] using pairs_pad_injective
  · simpa only [tapeSponge_oneByOne] using pairs_pad_injective

end Poseidon

end FieldSponge
