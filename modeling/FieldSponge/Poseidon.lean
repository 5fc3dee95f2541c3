import FieldSponge.Felt.Convert
import FieldSponge.Hades.Starknet

/-! The Poseidon sponge of Starknet: two elements are absorbed for each permutation, one element is
kept apart, and the digest is the first element. Inputs of one, of two and of any number of elements
start from different states. A sponge that is fed one element at a time lets it wait until its
partner comes, and pads what waits at the end. -/
namespace FieldSponge
namespace Poseidon

abbrev State := Hades.State Hades.Starknet.width

def permute (s : State) : State := Hades.Starknet.permute s

def digest (s : State) : Felt := Hades.Starknet.output s

def start : State := #v[0, 0, 0]

def absorb (s : State) (pair : Felt × Felt) : State :=
  permute (Hades.Starknet.addInput s pair.1 pair.2)

def absorbAll (s : State) (pairs : List (Felt × Felt)) : State := pairs.foldl absorb s

/-- The length of the padded input: two more than the input has, with the lowest bit cleared. -/
def paddedLength (n : Nat) : Nat := (n + 2) / 2 * 2

def pad (xs : List Felt) : List Felt := (xs ++ [1]).rightpad (paddedLength xs.length) 0

/-- Consecutive pairs. An element without a partner is dropped. -/
def pairs : List Felt → List (Felt × Felt)
  | a :: b :: rest => (a, b) :: pairs rest
  | _ => []

/-- The padding is a one, and a zero when that makes the length even. -/
theorem pad_eq (xs : List Felt) : pad xs = xs ++ 1 :: (if xs.length % 2 = 0 then [0] else []) := by
  have h : paddedLength xs.length - (xs ++ [1]).length = if xs.length % 2 = 0 then 1 else 0 := by
    simp only [paddedLength, List.length_append, List.length_singleton]
    split <;> omega
  rw [pad, List.rightpad, h]
  split <;> simp

theorem length_pad (xs : List Felt) : (pad xs).length = 2 * (xs.length / 2 + 1) := by
  rw [pad_eq]
  simp only [List.length_append, List.length_cons]
  split <;> simp <;> omega

@[simp] theorem length_pairs (xs : List Felt) : (pairs xs).length = xs.length / 2 := by
  fun_induction pairs xs with
  | case1 a b rest ih =>
    simp only [List.length_cons, ih]
    omega
  | case2 xs h =>
    match xs with
    | [] | [_] => simp
    | a :: b :: rest => exact absurd rfl (h a b rest)

theorem flatMap_pairs {xs : List Felt} (h : xs.length % 2 = 0) :
    (pairs xs).flatMap (fun (a, b) => [a, b]) = xs := by
  fun_induction pairs xs with
  | case1 a b rest ih =>
    simp only [List.length_cons] at h
    rw [List.flatMap_cons, ih (by omega)]
    rfl
  | case2 xs hs =>
    match xs with
    | [] => rfl
    | [_] => simp at h
    | a :: b :: rest => exact absurd rfl (hs a b rest)

@[simp] theorem absorbAll_append (s : State) (ps qs : List (Felt × Felt)) :
    absorbAll s (ps ++ qs) = absorbAll (absorbAll s ps) qs := List.foldl_append

def pairState (x y : Felt) : State := permute #v[x, y, Felt.two]

def singleState (x : Felt) : State := permute #v[x, 0, 1]

/-- The state after a list of elements and its padding. -/
def listState (xs : List Felt) : State := absorbAll start (pairs (pad xs))

def hashPair (x y : Felt) : Felt := digest (pairState x y)

def hashSingle (x : Felt) : Felt := digest (singleState x)

def hashMany (xs : List Felt) : Felt := digest (listState xs)

structure Hasher where
  state : State
  pending : Option Felt

namespace Hasher

def empty : Hasher := ⟨start, none⟩

def update (h : Hasher) (x : Felt) : Hasher :=
  match h.pending with
  | none => { h with pending := some x }
  | some w => ⟨absorb h.state (w, x), none⟩

def extend (h : Hasher) (xs : List Felt) : Hasher := xs.foldl update h

@[simp] theorem extend_nil (h : Hasher) : h.extend [] = h := rfl

@[simp] theorem extend_cons (h : Hasher) (x : Felt) (xs : List Felt) :
    h.extend (x :: xs) = (h.update x).extend xs := rfl

/-- The state after the padding, which is a one after what waits, or a one and nothing beside
it. -/
def finalState (h : Hasher) : State :=
  match h.pending with
  | none => permute (Hades.Starknet.addFirst h.state 1)
  | some w => absorb h.state (w, 1)

def finalize (h : Hasher) : Felt := digest h.finalState

def describe (h : Hasher) : String :=
  "PoseidonHasher \x7b state: [" ++ ", ".intercalate (h.state.toList.map Felt.describe)
    ++ "], pending: " ++ (match h.pending with
      | none => "None"
      | some w => "Some(" ++ w.describe ++ ")") ++ " \x7d"

end Hasher

/-- What can be done with a hasher and one saved copy of it. -/
inductive Step where
  | new
  | update (x : Felt)
  | extend (xs : List Felt)
  | save
  | restore
  | finalize

inductive Reply where
  | hasher (h : Hasher)
  | saved
  | digest (x : Felt)

structure Session where
  current : Hasher
  saved : Option Hasher

namespace Session

def start : Session := ⟨.empty, none⟩

/-- Finalizing works on a copy. Restoring without a saved copy starts afresh. -/
def apply (s : Session) : Step → Session × Reply
  | .new => ({ s with current := .empty }, .hasher .empty)
  | .update x => ({ s with current := s.current.update x }, .hasher (s.current.update x))
  | .extend xs => ({ s with current := s.current.extend xs }, .hasher (s.current.extend xs))
  | .save => ({ s with saved := some s.current }, .saved)
  | .restore =>
    ({ s with current := s.saved.getD .empty }, .hasher (s.saved.getD .empty))
  | .finalize => (s, .digest s.current.finalize)

/-- The replies to a list of steps, some of which could not be read. Those change nothing. -/
def run {ε : Type} (s : Session) : List (Except ε Step) → List (Except ε Reply)
  | [] => []
  | .error e :: rest => .error e :: run s rest
  | .ok step :: rest => .ok (s.apply step).2 :: run (s.apply step).1 rest

end Session

end Poseidon

end FieldSponge
