import FieldSponge.Felt.Convert
import Mathlib.Order.Bounds.Defs
import Mathlib.Tactic.Ring

/-! Draws from a stream of words. The stream is cut into candidates of four words, and a draw ends
with the first candidate from its beginning on that is below the prime, behind which the next draw
begins. A bound on the candidates that are looked at changes nothing else. It is not reached where
zeros follow given words, because they are accepted. -/
namespace FieldSponge

namespace WordTape

def atCandidate (w : ℕ → UInt64) (k : ℕ) : WordTape := ⟨w, 4 * k⟩

/-- The integer of candidate `k`, which takes 60 bits of its last word. -/
def candidateValue (w : ℕ → UInt64) (k : ℕ) : ℕ :=
  (w (4 * k)).toNat + 2 ^ 64 * (w (4 * k + 1)).toNat + 2 ^ 128 * (w (4 * k + 2)).toNat +
    2 ^ 192 * ((w (4 * k + 3)).toNat % 2 ^ 60)

def Accepted (w : ℕ → UInt64) (k : ℕ) : Prop := candidateValue w k < prime

instance (w : ℕ → UInt64) : DecidablePred (Accepted w) :=
  fun k => inferInstanceAs (Decidable (candidateValue w k < prime))

theorem toNat_and_topMask (u : UInt64) : (u &&& topMask).toNat = u.toNat % 2 ^ 60 := by
  have hmask : topMask.toNat = 2 ^ 60 - 1 := rfl
  rw [UInt64.toNat_and, hmask, Nat.and_two_pow_sub_one_eq_mod]

theorem toNat_candidate_atCandidate (w : ℕ → UInt64) (k : ℕ) :
    (atCandidate w k).candidate.toNat = candidateValue w k := by
  simp only [candidate, atCandidate, UInt256.toNat, UInt64.size, toNat_and_topMask, candidateValue]
  ring

theorem candidate_lt_iff (w : ℕ → UInt64) (k : ℕ) :
    (atCandidate w k).candidate < Montgomery.modulus ↔ Accepted w k := by
  rw [UInt256.lt_iff_toNat_lt, toNat_candidate_atCandidate, Montgomery.toNat_modulus, Accepted]

theorem advance_atCandidate (w : ℕ → UInt64) (k : ℕ) :
    (atCandidate w k).advance = atCandidate w (k + 1) := rfl

theorem word_ofList (words : List UInt64) (i : ℕ) : (ofList words).word i = words.getD i 0 := rfl

theorem word_ofList_of_le {words : List UInt64} {i : ℕ} (h : words.length ≤ i) :
    (ofList words).word i = 0 := by
  rw [word_ofList, List.getD_eq_getElem?_getD, List.getElem?_eq_none h, Option.getD_none]

theorem accepted_word_ofList {words : List UInt64} {k : ℕ} (h : words.length ≤ 4 * k) :
    Accepted (ofList words).word k := by
  have hzero : candidateValue (ofList words).word k = 0 := by
    have hword (r : ℕ) : (ofList words).word (4 * k + r) = 0 :=
      word_ofList_of_le (h.trans (Nat.le_add_right _ r))
    simp only [candidateValue, word_ofList_of_le h, hword]
    rfl
  rw [Accepted, hzero]
  decide

end WordTape

namespace Felt

open WordTape

def ofCandidate (w : ℕ → UInt64) (k : ℕ) : Felt := ofUInt256 (atCandidate w k).candidate

/-- Nothing is reduced when an accepted candidate becomes an element. -/
theorem toNat_ofCandidate {w : ℕ → UInt64} {k : ℕ} (h : Accepted w k) :
    (ofCandidate w k).toNat = candidateValue w k := by
  rw [ofCandidate, toNat_ofUInt256, toNat_candidate_atCandidate, Nat.mod_eq_of_lt h]

/-- A draw that looks at any number of candidates: the first one below the prime ends it. -/
inductive Draws : WordTape → Felt → WordTape → Prop where
  | accept {t : WordTape} (accepted : t.candidate < Montgomery.modulus) :
    Draws t (ofUInt256 t.candidate) t.advance
  | reject {t t' : WordTape} {x : Felt} (rejected : ¬ t.candidate < Montgomery.modulus)
    (rest : Draws t.advance x t') : Draws t x t'

/-- A bound on the candidates only cuts draws off. -/
theorem draws_iff {t t' : WordTape} {x : Felt} :
    Draws t x t' ↔ ∃ attempts, sample? attempts t = some (x, t') := by
  constructor
  · intro h
    induction h with
    | accept accepted => exact ⟨1, if_pos accepted⟩
    | reject rejected _ ih =>
      obtain ⟨attempts, hrest⟩ := ih
      exact ⟨attempts + 1, (if_neg rejected).trans hrest⟩
  · rintro ⟨attempts, h⟩
    induction attempts generalizing t with
    | zero => cases h
    | succ attempts ih =>
      rw [sample?] at h
      split at h
      · rename_i accepted
        cases h
        exact .accept accepted
      · rename_i rejected
        exact .reject rejected (ih h)

/-- Candidate `k` is the first accepted one from candidate `c` on. -/
structure FirstFrom (w : ℕ → UInt64) (c k : ℕ) : Prop where
  le : c ≤ k
  accepted : Accepted w k
  rejected : ∀ j, c ≤ j → j < k → ¬ Accepted w j

theorem firstFrom_self_iff {w : ℕ → UInt64} {c k : ℕ} (hc : Accepted w c) :
    FirstFrom w c k ↔ k = c := by
  constructor
  · intro h
    exact le_antisymm (not_lt.1 fun hlt => h.rejected c le_rfl hlt hc) h.le
  · rintro rfl
    exact ⟨le_rfl, hc, fun j hj hlt => absurd hlt (not_lt.2 hj)⟩

theorem firstFrom_succ_iff {w : ℕ → UInt64} {c k : ℕ} (hc : ¬ Accepted w c) :
    FirstFrom w c k ↔ FirstFrom w (c + 1) k := by
  constructor
  · intro h
    have hne : c ≠ k := fun e => hc (e ▸ h.accepted)
    refine ⟨Nat.lt_of_le_of_ne h.le hne, h.accepted, fun j hj => ?_⟩
    exact h.rejected j (Nat.le_of_succ_le hj)
  · intro h
    refine ⟨Nat.le_of_succ_le h.le, h.accepted, fun j hj hlt => ?_⟩
    rcases Nat.eq_or_lt_of_le hj with rfl | hj
    · exact hc
    · exact h.rejected j hj hlt

/-- A draw ends with the first accepted candidate among those it looks at, behind its four words. -/
theorem sample?_atCandidate_eq_some_iff {w : ℕ → UInt64} {attempts c : ℕ} {x : Felt}
    {t : WordTape} : sample? attempts (atCandidate w c) = some (x, t) ↔
      ∃ k, FirstFrom w c k ∧ k < c + attempts ∧ x = ofCandidate w k ∧
        t = atCandidate w (k + 1) := by
  induction attempts generalizing c with
  | zero =>
    constructor
    · intro h
      cases h
    · rintro ⟨k, hk, hlt, -⟩
      exact absurd hk.le (not_le.2 hlt)
  | succ attempts ih =>
    rw [sample?]
    split
    · rename_i hc
      rw [candidate_lt_iff] at hc
      simp only [firstFrom_self_iff hc, Option.some.injEq, Prod.mk.injEq]
      constructor
      · rintro ⟨rfl, rfl⟩
        exact ⟨c, rfl, by omega, rfl, rfl⟩
      · rintro ⟨k, rfl, -, rfl, rfl⟩
        exact ⟨rfl, rfl⟩
    · rename_i hc
      rw [candidate_lt_iff] at hc
      rw [advance_atCandidate, ih]
      simp only [firstFrom_succ_iff hc, Nat.add_right_comm c 1, Nat.add_assoc]

theorem FirstFrom.unique {w : ℕ → UInt64} {c k k' : ℕ} (h : FirstFrom w c k)
    (h' : FirstFrom w c k') : k = k' := by
  rcases lt_trichotomy k k' with hlt | heq | hlt
  · exact absurd h.accepted (h'.rejected k h.le hlt)
  · exact heq
  · exact absurd h'.accepted (h.rejected k' h'.le hlt)

theorem sample?_of_firstFrom {w : ℕ → UInt64} {c k : ℕ} (h : FirstFrom w c k) (attempts : ℕ) :
    sample? attempts (atCandidate w c) =
      if k < c + attempts then some (ofCandidate w k, atCandidate w (k + 1)) else none := by
  split
  · rename_i hlt
    exact sample?_atCandidate_eq_some_iff.2 ⟨k, h, hlt, rfl, rfl⟩
  · rename_i hge
    rw [Option.eq_none_iff_forall_ne_some]
    rintro ⟨x, t⟩ hdraw
    obtain ⟨k', hk', hlt, -⟩ := sample?_atCandidate_eq_some_iff.1 hdraw
    exact hge (h.unique hk' ▸ hlt)

theorem draws_of_firstFrom {w : ℕ → UInt64} {c k : ℕ} (h : FirstFrom w c k) (x : Felt)
    (t : WordTape) :
    Draws (atCandidate w c) x t ↔ x = ofCandidate w k ∧ t = atCandidate w (k + 1) := by
  simp only [draws_iff, sample?_of_firstFrom h, Option.ite_none_right_eq_some, Option.some.injEq,
    Prod.mk.injEq, exists_and_right, eq_comm (a := x), eq_comm (a := t)]
  exact and_iff_right ⟨k + 1, by omega⟩

theorem exists_firstFrom {w : ℕ → UInt64} {c j : ℕ} (hc : c ≤ j) (hj : Accepted w j) :
    ∃ k, k ≤ j ∧ FirstFrom w c k := by
  have hex : ∃ k, c ≤ k ∧ Accepted w k := ⟨j, hc, hj⟩
  have hk := Nat.find_spec hex
  refine ⟨Nat.find hex, Nat.find_min' hex ⟨hc, hj⟩, hk.1, hk.2, fun i hi hlt hacc => ?_⟩
  exact Nat.find_min hex hlt ⟨hi, hacc⟩

def acceptedFrom (w : ℕ → UInt64) (c m : ℕ) : List ℕ := (List.range' c m).filter (Accepted w)

/-- What a draw of candidate `k` answers: its element, and the words that are used up to its end. -/
def drawn (w : ℕ → UInt64) (k : ℕ) : Felt × ℕ := (ofCandidate w k, 4 * (k + 1))

theorem acceptedFrom_eq_cons {w : ℕ → UInt64} {c k : ℕ} (h : FirstFrom w c k) (m : ℕ) :
    acceptedFrom w c (k - c + (m + 1)) = k :: acceptedFrom w (k + 1) m := by
  have hcut : List.range' c (k - c + (m + 1)) =
      List.range' c (k - c) ++ k :: List.range' (k + 1) m := by
    rw [← List.range'_append_1, Nat.add_sub_cancel' h.le, List.range'_succ]
  have hbefore : (List.range' c (k - c)).filter (Accepted w) = [] := by
    rw [List.filter_eq_nil_iff]
    intro j hj hacc
    obtain ⟨hcj, hjk⟩ := List.mem_range'_1.1 hj
    exact h.rejected j hcj (by omega) (of_decide_eq_true hacc)
  rw [acceptedFrom, hcut, List.filter_append, hbefore, List.nil_append,
    List.filter_cons, if_pos (decide_eq_true h.accepted), acceptedFrom]

/-- Among candidates of which some are accepted there is a first accepted one, in front of all
others. -/
theorem exists_acceptedFrom_eq_cons {w : ℕ → UInt64} {c m : ℕ} (h : acceptedFrom w c m ≠ []) :
    ∃ k n, FirstFrom w c k ∧ m = k - c + (n + 1) ∧
      acceptedFrom w c m = k :: acceptedFrom w (k + 1) n := by
  obtain ⟨j, hj⟩ := List.exists_mem_of_ne_nil _ h
  obtain ⟨hrange, hacc⟩ := List.mem_filter.1 hj
  obtain ⟨hcj, hjm⟩ := List.mem_range'_1.1 hrange
  obtain ⟨k, hkj, hk⟩ := exists_firstFrom hcj (of_decide_eq_true hacc)
  have hm : m = k - c + (m - (k - c) - 1 + 1) := by
    have hck := hk.le
    omega
  refine ⟨k, m - (k - c) - 1, hk, hm, ?_⟩
  rw [← acceptedFrom_eq_cons hk, ← hm]

theorem samples?_acceptedFrom {w : ℕ → UInt64} {attempts count c m : ℕ} (hm : m ≤ attempts)
    (hcount : (acceptedFrom w c m).length = count) :
    samples? attempts count (atCandidate w c) = some ((acceptedFrom w c m).map (drawn w)) := by
  induction count generalizing c m with
  | zero => rw [List.length_eq_zero_iff.1 hcount, samples?, List.map_nil]
  | succ count ih =>
    have hne : acceptedFrom w c m ≠ [] := List.ne_nil_of_length_eq_add_one hcount
    obtain ⟨k, n, hk, rfl, hcons⟩ := exists_acceptedFrom_eq_cons hne
    have hlt : k < c + attempts := by
      have hck := hk.le
      omega
    rw [hcons, List.length_cons, Nat.add_right_cancel_iff] at hcount
    rw [samples?, sample?_of_firstFrom hk, if_pos hlt, hcons, List.map_cons]
    simp only [ih (by omega) hcount, Option.map_some]
    rfl

/-- Draws in turn answer the accepted candidates up to some candidate, each once. -/
theorem exists_samples?_eq_some_iff {w : ℕ → UInt64} {count c : ℕ} {draws : List (Felt × ℕ)} :
    (∃ attempts, samples? attempts count (atCandidate w c) = some draws) ↔
      ∃ m, (acceptedFrom w c m).length = count ∧ (acceptedFrom w c m).map (drawn w) = draws := by
  constructor
  · rintro ⟨attempts, h⟩
    induction count generalizing c draws with
    | zero => exact ⟨0, rfl, Option.some.inj h⟩
    | succ count ih =>
      rw [samples?] at h
      split at h
      · cases h
      · rename_i x t hdraw
        obtain ⟨k, hk, -, rfl, rfl⟩ := sample?_atCandidate_eq_some_iff.1 hdraw
        obtain ⟨rest, hrest, rfl⟩ := Option.map_eq_some_iff.1 h
        obtain ⟨m, hlength, rfl⟩ := ih hrest
        refine ⟨k - c + (m + 1), ?_, ?_⟩
        · rw [acceptedFrom_eq_cons hk, List.length_cons, hlength]
        · rw [acceptedFrom_eq_cons hk, List.map_cons]
          rfl
  · rintro ⟨m, hcount, rfl⟩
    exact ⟨m, samples?_acceptedFrom le_rfl hcount⟩

theorem map_drawn_eq_iff {w : ℕ → UInt64} {c m : ℕ} {draws : List (Felt × ℕ)} :
    (acceptedFrom w c m).map (drawn w) = draws ↔ draws.map (Prod.map toNat id) =
      (acceptedFrom w c m).map fun k => (candidateValue w k, 4 * (k + 1)) := by
  have hmap : ((acceptedFrom w c m).map (drawn w)).map (Prod.map toNat id) =
      (acceptedFrom w c m).map fun k => (candidateValue w k, 4 * (k + 1)) := by
    rw [List.map_map]
    refine List.map_congr_left fun k hk => Prod.ext ?_ rfl
    exact toNat_ofCandidate (of_decide_eq_true (List.mem_filter.1 hk).2)
  have hinj : Function.Injective (Prod.map toNat id : Felt × ℕ → ℕ × ℕ) :=
    Function.Injective.prodMap (fun _ _ => toNat_inj.1) Function.injective_id
  rw [← hmap, List.map_inj_right fun _ _ h => hinj h, eq_comm]

theorem exists_firstFrom_word_ofList (words : List UInt64) (c : ℕ) :
    ∃ k, k < c + ((words.length + 3) / 4 + 1) ∧ FirstFrom (ofList words).word c k := by
  have hzeros : words.length ≤ 4 * (c + (words.length + 3) / 4) := by omega
  obtain ⟨k, hle, hk⟩ := exists_firstFrom (Nat.le_add_right c _) (accepted_word_ofList hzeros)
  exact ⟨k, Nat.lt_succ_of_le hle, hk⟩

theorem exists_samples?_ofList (words : List UInt64) (count c : ℕ) :
    ∃ draws, samples? ((words.length + 3) / 4 + 1) count (atCandidate (ofList words).word c) =
      some draws := by
  induction count generalizing c with
  | zero => exact ⟨[], rfl⟩
  | succ count ih =>
    obtain ⟨k, hlt, hk⟩ := exists_firstFrom_word_ofList words c
    obtain ⟨rest, hrest⟩ := ih (k + 1)
    refine ⟨drawn (ofList words).word k :: rest, ?_⟩
    rw [samples?, sample?_of_firstFrom hk, if_pos hlt]
    simp only [hrest, Option.map_some]
    rfl

theorem exists_samplesOfList?_eq (words : List UInt64) (count : ℕ) :
    ∃ m, (acceptedFrom (ofList words).word 0 m).length = count ∧
      samplesOfList? words count =
        some ((acceptedFrom (ofList words).word 0 m).map (drawn (ofList words).word)) := by
  obtain ⟨draws, hdraws⟩ := exists_samples?_ofList words count 0
  obtain ⟨m, hcount, rfl⟩ := exists_samples?_eq_some_iff.1 ⟨_, hdraws⟩
  exact ⟨m, hcount, hdraws⟩

end Felt
end FieldSponge
