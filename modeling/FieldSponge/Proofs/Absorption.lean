import FieldSponge.Poseidon

/-! Absorbing element by element. A hasher is determined by the list of the elements absorbed since
it was made: the pairs of the list are in its state, and an element without a partner waits. Every
step of a session keeps this, so a digest is the hash of that list, however it was split. -/
namespace FieldSponge

theorem Felt.add_zero (a : Felt) : a + 0 = a := by
  rw [← Felt.toNat_inj, Felt.toNat_add, Felt.toNat_zero, Nat.add_zero,
    Nat.mod_eq_of_lt a.toNat_lt]

/-- To add to the first element alone is to add nothing to the second. -/
theorem Hades.Starknet.addFirst_eq_addInput (s : State width) (x : Felt) :
    addFirst s x = addInput s x 0 := by
  apply Vector.ext
  intro i hi
  match i with
  | 0 | 2 => simp [addFirst, addInput]
  | 1 => simp [addFirst, addInput, Felt.add_zero]

namespace Poseidon

def unpair (ps : List (Felt × Felt)) : List Felt := ps.flatMap fun (a, b) => [a, b]

/-- Pairing loses nothing but an element without a partner. -/
theorem unpair_pairs (xs : List Felt) : unpair (pairs xs) = xs.take (2 * (xs.length / 2)) := by
  fun_induction pairs xs with
  | case1 a b rest ih =>
    have hl : 2 * ((a :: b :: rest).length / 2) = 2 * (rest.length / 2) + 2 := by
      simp only [List.length_cons]
      omega
    rw [hl, List.take_succ_cons, List.take_succ_cons, ← ih]
    rfl
  | case2 xs h =>
    rcases xs with _ | ⟨a, _ | ⟨b, rest⟩⟩
    · rfl
    · simp [unpair]
    · exact absurd rfl (h a b rest)

theorem pairs_append {xs : List Felt} (h : xs.length % 2 = 0) (ys : List Felt) :
    pairs (xs ++ ys) = pairs xs ++ pairs ys := by
  fun_induction pairs xs with
  | case1 a b rest ih =>
    simp only [List.length_cons] at h
    rw [List.cons_append, List.cons_append, pairs, ih (by omega), List.cons_append]
  | case2 xs hs =>
    rcases xs with _ | ⟨a, _ | ⟨b, rest⟩⟩
    · rfl
    · simp at h
    · exact absurd rfl (hs a b rest)

theorem exists_eq_append_singleton {xs : List Felt} (h : xs.length % 2 = 1) :
    ∃ ys y, xs = ys ++ [y] ∧ ys.length % 2 = 0 := by
  rcases List.eq_nil_or_concat xs with rfl | ⟨ys, y, rfl⟩
  · simp at h
  · rw [List.concat_eq_append, List.length_append, List.length_singleton] at h
    exact ⟨ys, y, List.concat_eq_append, by omega⟩

namespace Hasher

/-- The hasher that has absorbed a list. -/
def ofList (ws : List Felt) : Hasher :=
  ⟨absorbAll start (pairs ws), if ws.length % 2 = 1 then ws.getLast? else none⟩

theorem ofList_of_even {ws : List Felt} (h : ws.length % 2 = 0) :
    ofList ws = ⟨absorbAll start (pairs ws), none⟩ := by
  rw [ofList, if_neg (by omega)]

theorem ofList_append_singleton {ws : List Felt} (h : ws.length % 2 = 0) (x : Felt) :
    ofList (ws ++ [x]) = ⟨absorbAll start (pairs ws), some x⟩ := by
  have hl : (ws ++ [x]).length % 2 = 1 := by
    rw [List.length_append, List.length_singleton]
    omega
  rw [ofList, if_pos hl, pairs_append h, List.getLast?_concat]
  simp [pairs]

@[simp] theorem update_ofList (ws : List Felt) (x : Felt) :
    (ofList ws).update x = ofList (ws ++ [x]) := by
  rcases Nat.mod_two_eq_zero_or_one ws.length with h | h
  · rw [ofList_of_even h, ofList_append_singleton h]
    rfl
  · obtain ⟨us, w, rfl, hu⟩ := exists_eq_append_singleton h
    have hl : (us ++ [w, x]).length % 2 = 0 := by
      rw [List.length_append, List.length_cons, List.length_singleton]
      omega
    rw [ofList_append_singleton hu, List.append_assoc, List.singleton_append, ofList_of_even hl,
      pairs_append hu, absorbAll_append]
    simp only [update, pairs, absorbAll, List.foldl_cons, List.foldl_nil]

@[simp] theorem extend_ofList (ws xs : List Felt) : (ofList ws).extend xs = ofList (ws ++ xs) := by
  induction xs generalizing ws with
  | nil => simp
  | cons x xs ih => rw [extend_cons, update_ofList, ih, List.append_assoc, List.singleton_append]

/-- The padding of a hasher is that of the list that it has absorbed. -/
@[simp] theorem finalState_ofList (ws : List Felt) : (ofList ws).finalState = listState ws := by
  rcases Nat.mod_two_eq_zero_or_one ws.length with h | h
  · rw [ofList_of_even h, listState, pad_eq, if_pos h, pairs_append h, absorbAll_append]
    simp only [finalState, Hades.Starknet.addFirst_eq_addInput, absorb, pairs, absorbAll,
      List.foldl_cons, List.foldl_nil]
  · obtain ⟨us, w, rfl, hu⟩ := exists_eq_append_singleton h
    rw [ofList_append_singleton hu, listState, pad_eq, if_neg (by omega), List.append_assoc,
      pairs_append hu, absorbAll_append]
    simp only [finalState, List.singleton_append, pairs, absorbAll, List.foldl_cons,
      List.foldl_nil]

end Hasher

/-- The elements absorbed by the current hasher and by the saved copy. -/
structure History where
  current : List Felt
  saved : Option (List Felt)

namespace History

def start : History := ⟨[], none⟩

def apply (h : History) : Step → History
  | .new => { h with current := [] }
  | .update x => { h with current := h.current ++ [x] }
  | .extend xs => { h with current := h.current ++ xs }
  | .save => { h with saved := some h.current }
  | .restore => { h with current := h.saved.getD [] }
  | .finalize => h

def after {ε : Type} (h : History) : List (Except ε Step) → History
  | [] => h
  | .error _ :: rest => after h rest
  | .ok step :: rest => after (h.apply step) rest

def session (h : History) : Session := ⟨.ofList h.current, h.saved.map .ofList⟩

theorem session_apply (h : History) (step : Step) :
    (h.session.apply step).1 = (h.apply step).session := by
  cases step with
  | new | save | finalize => rfl
  | update x => simp [session, apply, Session.apply]
  | extend xs => simp [session, apply, Session.apply]
  | restore =>
    cases hs : h.saved with
    | none => simp [session, apply, Session.apply, hs, Hasher.empty, Hasher.ofList, pairs, absorbAll]
    | some ws => simp [session, apply, Session.apply, hs]

end History

def Session.after {ε : Type} (s : Session) : List (Except ε Step) → Session
  | [] => s
  | .error _ :: rest => after s rest
  | .ok step :: rest => after (s.apply step).1 rest

theorem Session.run_append {ε : Type} (s : Session) (xs ys : List (Except ε Step)) :
    s.run (xs ++ ys) = s.run xs ++ (s.after xs).run ys := by
  induction xs generalizing s with
  | nil => rfl
  | cons step xs ih => cases step <;> simp [run, after, ih]

theorem History.session_after {ε : Type} (h : History) (steps : List (Except ε Step)) :
    h.session.after steps = (h.after steps).session := by
  induction steps generalizing h with
  | nil => rfl
  | cons step steps ih =>
    cases step with
    | error e => exact ih h
    | ok step => rw [Session.after, session_apply, ih, after]

theorem absorbAll_start_eq (ps : List (Felt × Felt)) : absorbAll start ps = ps.foldl
    (fun s (a, b) => Hades.Starknet.permute #v[s[0] + a, s[1] + b, s[2]]) #v[0, 0, 0] := by
  have h : absorb = fun s (a, b) => Hades.Starknet.permute #v[s[0] + a, s[1] + b, s[2]] := by
    funext s p
    rw [absorb, permute, Hades.Starknet.addInput]
  rw [absorbAll, h, start]

theorem extend_flatten (ws : List Felt) (xss : List (List Felt)) :
    xss.foldl Hasher.extend (.ofList ws) = .ofList (ws ++ xss.flatten) := by
  induction xss generalizing ws with
  | nil => simp
  | cons xs xss ih =>
    rw [List.foldl_cons, Hasher.extend_ofList, ih, List.flatten_cons, List.append_assoc]

/-- The hash of a list is the first element of the state after the pairs of the padded list. In
every session the hasher is determined by the elements absorbed since it was made, and its digest is
their hash, however they were split. -/
theorem session_digest {ε : Type} :
    (∀ xs : List Felt, ∃ ps : List (Felt × Felt),
      unpair ps = xs ++ [1] ++ (if xs.length % 2 = 0 then [0] else []) ∧
      hashMany xs = (ps.foldl (fun s (a, b) =>
        Hades.Starknet.permute #v[s[0] + a, s[1] + b, s[2]]) #v[0, 0, 0])[0]) ∧
    (∀ steps : List (Except ε Step),
      let h := (Session.start.after steps).current
      let ws := (History.start.after steps).current
      h.pending = (if ws.length % 2 = 1 then ws.getLast? else none) ∧
      (∃ ps : List (Felt × Felt),
        unpair ps = ws.take (2 * (ws.length / 2)) ∧
        h.state = ps.foldl (fun s (a, b) =>
          Hades.Starknet.permute #v[s[0] + a, s[1] + b, s[2]]) #v[0, 0, 0]) ∧
      h.finalize = hashMany ws ∧
      Session.start.run (steps ++ [.ok .finalize])
        = Session.start.run steps ++ [.ok (.digest (hashMany ws))]) ∧
    (∀ steps steps' : List (Except ε Step),
      (History.start.after steps).current = (History.start.after steps').current →
      (Session.start.after steps).current.finalize
        = (Session.start.after steps').current.finalize) ∧
    ∀ xss : List (List Felt), (xss.foldl Hasher.extend .empty).finalize = hashMany xss.flatten := by
  have hempty : Hasher.ofList [] = .empty := rfl
  have hcurrent : ∀ steps : List (Except ε Step),
      (Session.start.after steps).current = .ofList (History.start.after steps).current := by
    intro steps
    exact congrArg Session.current (History.start.session_after steps)
  have hfinal : ∀ ws : List Felt, (Hasher.ofList ws).finalize = hashMany ws := by
    intro ws
    rw [Hasher.finalize, Hasher.finalState_ofList, hashMany]
  refine ⟨fun xs => ⟨pairs (pad xs), ?_, ?_⟩, fun steps => ?_, fun steps steps' h => ?_,
    fun xss => ?_⟩
  · have hl := length_pad xs
    rw [unpair_pairs, hl, Nat.mul_div_cancel_left _ (by decide), ← hl, List.take_length, pad_eq,
      List.append_assoc, List.singleton_append]
  · rw [hashMany, listState, absorbAll_start_eq]
    rfl
  · simp only [hcurrent]
    refine ⟨rfl, ⟨_, unpair_pairs _, absorbAll_start_eq _⟩, hfinal _, ?_⟩
    rw [Session.run_append, Session.run, Session.run, Session.apply, hcurrent, hfinal]
  · rw [hcurrent, hcurrent, h]
  · rw [← hempty, extend_flatten, hfinal, List.nil_append]

end Poseidon

end FieldSponge
