import FieldSponge.Poseidon
import FieldSponge.Proofs.StoredWords

/-! The permutation and the hashes on stored words alone, next to those on elements. -/
namespace FieldSponge
namespace Stored

open Montgomery Hades

abbrev Words (width : Nat) := Vector UInt256 width

variable {width : Nat}

/-- The layers of a round of words. -/
structure Layers (width : Nat) where
  power : UInt256 → UInt256
  singleIndex : Fin width
  mix : Words width → Words width

def addRow (row s : Words width) : Words width := s.zipWith add row

theorem map_mont_addRow (row s : State width) :
    (Hades.addRow row s).map Felt.mont = addRow (row.map Felt.mont) (s.map Felt.mont) := by
  ext i hi
  simp [Hades.addRow, addRow]

namespace Layers

def raise (layers : Layers width) : RoundKind → Words width → Words width
  | .full, s => s.map layers.power
  | .single, s => s.set layers.singleIndex (layers.power s[layers.singleIndex])

def round (layers : Layers width) (kind : RoundKind) (row s : Words width) : Words width :=
  layers.mix (layers.raise kind (addRow row s))

def run (layers : Layers width) (kinds : List RoundKind) (rows : List (Words width))
    (s : Words width) : Words width :=
  (kinds.zip rows).foldl (fun s (kind, row) => layers.round kind row s) s

/-- Layers of words that do what layers of elements do. -/
structure Follows (layers : Layers width) (elements : Hades.Layers width) : Prop where
  singleIndex : layers.singleIndex = elements.singleIndex
  power : ∀ x, (elements.power x).mont = layers.power x.mont
  mix : ∀ s, (elements.mix s).map Felt.mont = layers.mix (s.map Felt.mont)

variable {layers : Layers width} {elements : Hades.Layers width}

theorem Follows.map_mont_raise (h : layers.Follows elements) (kind : RoundKind)
    (s : State width) :
    (elements.raise kind s).map Felt.mont = layers.raise kind (s.map Felt.mont) := by
  cases kind with
  | full =>
    ext i hi
    simp [Hades.Layers.raise, raise, h.power]
  | single =>
    ext i hi
    simp [Hades.Layers.raise, raise, h.power, h.singleIndex, Vector.getElem_set]

theorem Follows.map_mont_round (h : layers.Follows elements) (kind : RoundKind)
    (row s : State width) : (elements.round kind row s).map Felt.mont =
      layers.round kind (row.map Felt.mont) (s.map Felt.mont) := by
  rw [Hades.Layers.round, round, h.mix, h.map_mont_raise, map_mont_addRow]

/-- Rounds of words and rounds of elements go side by side. -/
theorem Follows.map_mont_run (h : layers.Follows elements) (kinds : List RoundKind)
    (rows : List (State width)) (s : State width) : (elements.run kinds rows s).map Felt.mont =
      layers.run kinds (rows.map (·.map Felt.mont)) (s.map Felt.mont) := by
  induction kinds generalizing rows s with
  | nil => rfl
  | cons kind kinds ih =>
    cases rows with
    | nil => rfl
    | cons row rows =>
      have hr := h.map_mont_round kind row s
      have ih := ih rows (elements.round kind row s)
      rw [hr] at ih
      exact ih

end Layers

def matrixProduct (matrix : Vector (Words width) width) (s : Words width) : Words width :=
  matrix.map fun row => sum (row.zipWith mul s).toList

theorem map_mont_matrixProduct (matrix : Vector (State width) width) (s : State width) :
    (Hades.matrixProduct matrix s).map Felt.mont =
      matrixProduct (matrix.map (·.map Felt.mont)) (s.map Felt.mont) := by
  ext i hi
  simp [Hades.matrixProduct, matrixProduct, Vector.toList_map, List.zipWith_map]

/-- The parameters of a permutation, whose entries are elements, words, or names of either. -/
structure Parameters (α : Type) (width : Nat) where
  schedule : Schedule
  singleIndex : Fin width
  exponent : UInt64
  matrix : Vector (Vector α width) width
  constants : List (Vector α width)

namespace Parameters

def map {α β : Type} (f : α → β) (p : Parameters α width) : Parameters β width :=
  ⟨p.schedule, p.singleIndex, p.exponent, p.matrix.map (·.map f), p.constants.map (·.map f)⟩

theorem map_map {α β γ : Type} (f : α → β) (g : β → γ) (p : Parameters α width) :
    (p.map f).map g = p.map fun x => g (f x) := by
  simp [map, Function.comp_def]

def hades (p : Parameters Felt width) : Hades width :=
  ⟨p.schedule, p.singleIndex, p.exponent, p.matrix, p.constants⟩

def layers (p : Parameters UInt256 width) : Layers width :=
  ⟨fun x => powWord x p.exponent, p.singleIndex, matrixProduct p.matrix⟩

def permute (p : Parameters UInt256 width) (s : Words width) :
    Except RowMismatch (Words width) :=
  if p.constants.length = p.schedule.rounds then
    .ok (p.layers.run p.schedule.kinds p.constants s)
  else .error ⟨p.constants.length, p.schedule.rounds⟩

theorem follows_layers (p : Parameters Felt width) :
    (p.map Felt.mont).layers.Follows p.hades.layers where
  singleIndex := rfl
  power x := mont_powWord x p.exponent
  mix s := map_mont_matrixProduct p.matrix s

theorem map_mont_permute (p : Parameters Felt width) (s : State width) :
    (p.hades.permute s).map (·.map Felt.mont) = (p.map Felt.mont).permute (s.map Felt.mont) := by
  have hrun := p.follows_layers.map_mont_run p.schedule.kinds p.constants s
  have hl : (p.map Felt.mont).constants.length = p.constants.length := List.length_map _
  rw [Hades.permute, permute, hl]
  change (if p.constants.length = p.schedule.rounds then _ else _ : Except _ _).map _ =
    if p.constants.length = p.schedule.rounds then _ else _
  split
  · exact congrArg Except.ok hrun
  · rfl

end Parameters

theorem zero_lt_width : 0 < Starknet.width := by decide

theorem one_lt_width : 1 < Starknet.width := by decide

theorem two_lt_width : 2 < Starknet.width := by decide

def first (s : Words Starknet.width) : UInt256 := s.get ⟨0, zero_lt_width⟩

@[simp] theorem first_map_mont (s : State Starknet.width) : first (s.map Felt.mont) = s[0].mont :=
  Vector.getElem_map Felt.mont zero_lt_width

def second (s : Words Starknet.width) : UInt256 := s.get ⟨1, one_lt_width⟩

@[simp] theorem second_map_mont (s : State Starknet.width) :
    second (s.map Felt.mont) = s[1].mont :=
  Vector.getElem_map Felt.mont one_lt_width

def third (s : Words Starknet.width) : UInt256 := s.get ⟨2, two_lt_width⟩

@[simp] theorem third_map_mont (s : State Starknet.width) : third (s.map Felt.mont) = s[2].mont :=
  Vector.getElem_map Felt.mont two_lt_width

def cube (x : UInt256) : UInt256 := mul (square x) x

theorem mont_cube (x : Felt) : (Starknet.cube x).mont = cube x.mont := by
  rw [Starknet.cube, cube, mont_mul, mont_square]

def mix (s : Words Starknet.width) : Words Starknet.width :=
  let total := add (add (first s) (second s)) (third s)
  #v[add total (double (first s)), sub total (double (second s)),
    sub total (add (double (third s)) (third s))]

/-- A vector of three is mapped entry by entry. -/
theorem map_triple {α β : Type} {f : α → β} {a b c : α} {x y z : β} (ha : f a = x) (hb : f b = y)
    (hc : f c = z) : #v[a, b, c].map f = #v[x, y, z] := by
  subst ha hb hc
  simp

theorem map_mont_mix (s : State Starknet.width) :
    (Starknet.mix s).map Felt.mont = mix (s.map Felt.mont) := by
  rw [Starknet.mix, mix]
  apply map_triple
  · simp only [mont_add, mont_double, first_map_mont, second_map_mont, third_map_mont]
  · simp only [mont_add, mont_sub, mont_double, first_map_mont, second_map_mont, third_map_mont]
  · simp only [mont_add, mont_sub, mont_double, first_map_mont, second_map_mont, third_map_mont]

def layers : Layers Starknet.width := ⟨cube, Starknet.parameters.singleIndex, mix⟩

theorem follows_layers : layers.Follows Starknet.layers where
  singleIndex := rfl
  power := mont_cube
  mix := map_mont_mix

def constants : List (Words Starknet.width) :=
  Starknet.canonicalConstants.map (·.map ofCanonical)

theorem map_mont_constants : Starknet.constants.map (·.map Felt.mont) = constants := by
  rw [Starknet.constants, constants, List.map_map]
  apply List.map_congr_left
  intro row _
  apply Vector.ext
  intro column hc
  simp only [Function.comp_apply, Vector.getElem_map, mont_ofUInt256]

def permute (s : Words Starknet.width) : Words Starknet.width :=
  layers.run Starknet.schedule.kinds constants s

theorem map_mont_permute (s : State Starknet.width) :
    (Starknet.permute s).map Felt.mont = permute (s.map Felt.mont) := by
  rw [Starknet.permute, permute, ← map_mont_constants]
  exact follows_layers.map_mont_run Starknet.schedule.kinds Starknet.constants s

def permuteList (s : List UInt256) : Except Starknet.ShapeError (List UInt256) :=
  if h : s.length = Starknet.width then .ok (permute ⟨s.toArray, by simpa using h⟩).toList
  else .error ⟨Starknet.width, s.length⟩

theorem map_mont_permuteList (s : List Felt) :
    (Starknet.permuteList s).map (·.map Felt.mont) = permuteList (s.map Felt.mont) := by
  have hl : (s.map Felt.mont).length = s.length := List.length_map _
  by_cases h : s.length = Starknet.width
  · obtain ⟨t, rfl⟩ := exists_toList_eq h
    have hv : (⟨(t.toList.map Felt.mont).toArray, by simp⟩ : Words Starknet.width) =
        t.map Felt.mont := by
      apply Vector.toArray_inj.1
      change (t.toList.map Felt.mont).toArray = _
      rw [← Vector.toList_map]
      exact Array.toArray_toList
    rw [Starknet.permuteList_toList, permuteList, dif_pos (hl.trans h), hv, ← map_mont_permute,
      Vector.toList_map, Except.map]
  · rw [Starknet.permuteList_of_length_ne h, permuteList, dif_neg (by rwa [hl]), hl, Except.map]

def start : Words Starknet.width := #v[0, 0, 0]

theorem map_mont_start : Poseidon.start.map Felt.mont = start := map_triple rfl rfl rfl

def addInput (s : Words Starknet.width) (x y : UInt256) : Words Starknet.width :=
  #v[add (first s) x, add (second s) y, third s]

theorem map_mont_addInput (s : State Starknet.width) (x y : Felt) :
    (Starknet.addInput s x y).map Felt.mont = addInput (s.map Felt.mont) x.mont y.mont := by
  rw [Starknet.addInput, addInput]
  apply map_triple
  · rw [mont_add, first_map_mont]
  · rw [mont_add, second_map_mont]
  · rw [third_map_mont]

def addFirst (s : Words Starknet.width) (x : UInt256) : Words Starknet.width :=
  s.set 0 (add (first s) x) zero_lt_width

theorem map_mont_addFirst (s : State Starknet.width) (x : Felt) :
    (Starknet.addFirst s x).map Felt.mont = addFirst (s.map Felt.mont) x.mont := by
  rw [Starknet.addFirst, addFirst, Vector.map_set, mont_add, first_map_mont]

def absorb (s : Words Starknet.width) (pair : UInt256 × UInt256) : Words Starknet.width :=
  permute (addInput s pair.1 pair.2)

theorem map_mont_absorb (s : State Starknet.width) (pair : Felt × Felt) :
    (Poseidon.absorb s pair).map Felt.mont =
      absorb (s.map Felt.mont) (pair.map Felt.mont Felt.mont) := by
  rw [Poseidon.absorb, absorb, Poseidon.permute, map_mont_permute, map_mont_addInput]
  rfl

def absorbAll (s : Words Starknet.width) (pairs : List (UInt256 × UInt256)) :
    Words Starknet.width := pairs.foldl absorb s

theorem map_mont_absorbAll (s : State Starknet.width) (pairs : List (Felt × Felt)) :
    (Poseidon.absorbAll s pairs).map Felt.mont =
      absorbAll (s.map Felt.mont) (pairs.map (Prod.map Felt.mont Felt.mont)) := by
  induction pairs generalizing s with
  | nil => rfl
  | cons pair pairs ih =>
    have ih := ih (Poseidon.absorb s pair)
    rw [map_mont_absorb] at ih
    exact ih

def pad (xs : List UInt256) : List UInt256 :=
  (xs ++ [radix]).rightpad (Poseidon.paddedLength xs.length) 0

theorem map_mont_pad (xs : List Felt) :
    (Poseidon.pad xs).map Felt.mont = pad (xs.map Felt.mont) := by
  simp [Poseidon.pad, pad, List.rightpad]

def pairs : List UInt256 → List (UInt256 × UInt256)
  | a :: b :: rest => (a, b) :: pairs rest
  | _ => []

theorem map_mont_pairs (xs : List Felt) :
    (Poseidon.pairs xs).map (Prod.map Felt.mont Felt.mont) = pairs (xs.map Felt.mont) := by
  fun_induction Poseidon.pairs xs with
  | case1 a b rest ih =>
    rw [List.map_cons, ih]
    rfl
  | case2 xs h =>
    rcases xs with _ | ⟨a, _ | ⟨b, rest⟩⟩
    · rfl
    · rfl
    · exact absurd rfl (h a b rest)

def hashPair (x y : UInt256) : UInt256 := first (permute #v[x, y, Felt.two.mont])

def hashSingle (x : UInt256) : UInt256 := first (permute #v[x, 0, radix])

def hashMany (xs : List UInt256) : UInt256 := first (absorbAll start (pairs (pad xs)))

theorem mont_digest (s : State Starknet.width) :
    (Poseidon.digest s).mont = first (s.map Felt.mont) := by
  rw [first_map_mont, Poseidon.digest, Starknet.output]

@[simp] theorem mont_hashPair (x y : Felt) :
    (Poseidon.hashPair x y).mont = hashPair x.mont y.mont := by
  have h : #v[x, y, Felt.two].map Felt.mont = #v[x.mont, y.mont, Felt.two.mont] :=
    map_triple rfl rfl rfl
  rw [Poseidon.hashPair, Poseidon.pairState, mont_digest, Poseidon.permute]
  simp only [map_mont_permute, h, hashPair]

@[simp] theorem mont_hashSingle (x : Felt) :
    (Poseidon.hashSingle x).mont = hashSingle x.mont := by
  have h : #v[x, 0, 1].map Felt.mont = #v[x.mont, 0, radix] := map_triple rfl rfl rfl
  rw [Poseidon.hashSingle, Poseidon.singleState, mont_digest, Poseidon.permute]
  simp only [map_mont_permute, h, hashSingle]

theorem map_mont_listState (xs : List Felt) : (Poseidon.listState xs).map Felt.mont =
    absorbAll start (pairs (pad (xs.map Felt.mont))) := by
  rw [Poseidon.listState, map_mont_absorbAll, map_mont_start, map_mont_pairs, map_mont_pad]

@[simp] theorem mont_hashMany (xs : List Felt) :
    (Poseidon.hashMany xs).mont = hashMany (xs.map Felt.mont) := by
  rw [Poseidon.hashMany, mont_digest]
  simp only [map_mont_listState, hashMany]

/-- A sponge of words that is fed one word at a time. -/
structure Hasher where
  state : Words Starknet.width
  pending : Option UInt256

namespace Hasher

def ofElements (h : Poseidon.Hasher) : Hasher := ⟨h.state.map Felt.mont, h.pending.map Felt.mont⟩

def empty : Hasher := ⟨start, none⟩

theorem ofElements_empty : ofElements .empty = empty := by
  rw [ofElements, empty, Poseidon.Hasher.empty, map_mont_start, Option.map_none]

def update (h : Hasher) (x : UInt256) : Hasher :=
  match h.pending with
  | none => { h with pending := some x }
  | some w => ⟨absorb h.state (w, x), none⟩

theorem ofElements_update (h : Poseidon.Hasher) (x : Felt) :
    ofElements (h.update x) = (ofElements h).update x.mont := by
  rcases h with ⟨s, _ | w⟩
  · rfl
  · have ha := map_mont_absorb s (w, x)
    rw [Poseidon.Hasher.update, ofElements, ha]
    rfl

def extend (h : Hasher) (xs : List UInt256) : Hasher := xs.foldl update h

theorem ofElements_extend (h : Poseidon.Hasher) (xs : List Felt) :
    ofElements (h.extend xs) = (ofElements h).extend (xs.map Felt.mont) := by
  induction xs generalizing h with
  | nil => rfl
  | cons x xs ih =>
    have ih := ih (h.update x)
    rw [ofElements_update] at ih
    exact ih

def finalState (h : Hasher) : Words Starknet.width :=
  match h.pending with
  | none => permute (addFirst h.state radix)
  | some w => absorb h.state (w, radix)

theorem map_mont_finalState (h : Poseidon.Hasher) :
    h.finalState.map Felt.mont = (ofElements h).finalState := by
  rcases h with ⟨s, _ | w⟩
  · rw [Poseidon.Hasher.finalState, Poseidon.permute, map_mont_permute, map_mont_addFirst]
    rfl
  · exact map_mont_absorb s (w, 1)

def finalize (h : Hasher) : UInt256 := first h.finalState

theorem mont_finalize (h : Poseidon.Hasher) : h.finalize.mont = (ofElements h).finalize := by
  rw [Poseidon.Hasher.finalize, mont_digest]
  simp only [map_mont_finalState, finalize]

end Hasher

end Stored

end FieldSponge
