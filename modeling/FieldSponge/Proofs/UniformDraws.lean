import FieldSponge.Proofs.CandidateDraws
import Mathlib.Algebra.BigOperators.Fin
import Mathlib.Analysis.SpecificLimits.Basic
import Mathlib.Data.FinEnum
import Mathlib.Data.Fin.VecNotation
import Mathlib.Data.Set.Card
import Mathlib.Logic.Equiv.Fin.Basic
import Mathlib.Order.Interval.Set.Nat
import Mathlib.Tactic.FinCases

/-! How many words lead to an element. A quadruple of words is a candidate and the four bits of its
last word that do not count, whatever these are. So each candidate comes of 16 quadruples, and after
any number of rejected ones all elements are equally likely. -/
namespace FieldSponge

namespace Quadruple

def value (q : Fin 4 → UInt64) : ℕ := WordTape.candidateValue (WordTape.ofList (List.ofFn q)).word 0

theorem value_eq (q : Fin 4 → UInt64) : value q = (q 0).toNat + 2 ^ 64 * (q 1).toNat +
    2 ^ 128 * (q 2).toNat + 2 ^ 192 * ((q 3).toNat % 2 ^ 60) := rfl

/-- The bits of the last word that do not count. -/
def spare (q : Fin 4 → UInt64) : ℕ := (q (Fin.last 3)).toNat / 2 ^ 60

theorem spare_eq (q : Fin 4 → UInt64) : spare q = (q 3).toNat / 2 ^ 60 := rfl

theorem spare_lt (q : Fin 4 → UInt64) : spare q < 16 := by
  have h3 := (q 3).toNat_lt
  rw [spare_eq]
  omega

theorem value_lt (q : Fin 4 → UInt64) : value q < 2 ^ 252 := by
  have h0 := (q 0).toNat_lt
  have h1 := (q 1).toNat_lt
  have h2 := (q 2).toNat_lt
  rw [value_eq]
  omega

theorem value_spare_injective :
    Function.Injective fun q : Fin 4 → UInt64 => (value q, spare q) := by
  intro q q' h
  obtain ⟨hvalue, hspare⟩ := Prod.mk.inj h
  rw [value_eq, value_eq] at hvalue
  rw [spare_eq, spare_eq] at hspare
  have h0 := (q 0).toNat_lt
  have h1 := (q 1).toNat_lt
  have h2 := (q 2).toNat_lt
  have h0' := (q' 0).toNat_lt
  have h1' := (q' 1).toNat_lt
  have h2' := (q' 2).toNat_lt
  funext r
  rw [← UInt64.toNat_inj]
  fin_cases r
  all_goals
    simp only [Fin.zero_eta, Fin.mk_one, Fin.reduceFinMk]
    omega

theorem exists_value_spare {n j : ℕ} (hn : n < 2 ^ 252) (hj : j < 16) :
    ∃ q : Fin 4 → UInt64, value q = n ∧ spare q = j := by
  refine ⟨![.ofNat n, .ofNat (n / 2 ^ 64), .ofNat (n / 2 ^ 128), .ofNat (n / 2 ^ 192 + 2 ^ 60 * j)],
    ?_, ?_⟩
  · simp only [value_eq, Matrix.cons_val, UInt64.toNat_ofNat']
    omega
  · simp only [spare_eq, Matrix.cons_val, UInt64.toNat_ofNat']
    omega

/-- Each candidate comes of 16 quadruples. -/
theorem ncard_value_mem {s : Set ℕ} (hs : ∀ n ∈ s, n < 2 ^ 252) :
    {q | value q ∈ s}.ncard = s.ncard * 16 := by
  have hrange : s ×ˢ Set.Iio 16 ⊆
      Set.range fun q : Fin 4 → UInt64 => (value q, spare q) := by
    rintro ⟨n, j⟩ ⟨hn, hj⟩
    obtain ⟨q, rfl, rfl⟩ := exists_value_spare (hs n hn) hj
    exact ⟨q, rfl⟩
  calc {q | value q ∈ s}.ncard
      = (Set.preimage (fun q => (value q, spare q)) (s ×ˢ Set.Iio 16)).ncard := by
        congr 1
        ext q
        exact (and_iff_left (spare_lt q)).symm
    _ = (s ×ˢ Set.Iio 16).ncard :=
        Set.ncard_preimage_of_injective_subset_range value_spare_injective hrange
    _ = s.ncard * 16 := by rw [Set.ncard_prod, Set.ncard_Iio_nat]

theorem card : Nat.card (Fin 4 → UInt64) = 2 ^ 256 := by
  have hall : {q | value q ∈ Set.Iio (2 ^ 252)} = Set.univ := Set.eq_univ_of_forall value_lt
  rw [← Set.ncard_univ, ← hall, ncard_value_mem fun n hn => Set.mem_Iio.1 hn, Set.ncard_Iio_nat]
  norm_num

theorem prime_lt : prime < 2 ^ 252 := by decide

theorem ncard_value_eq (x : Felt) : {q | value q = x.toNat}.ncard = 16 := by
  have h := ncard_value_mem (s := {x.toNat}) fun n hn => by
    rw [Set.mem_singleton_iff.1 hn]
    exact (Felt.toNat_lt x).trans prime_lt
  rwa [Set.ncard_singleton, Nat.one_mul] at h

theorem ncard_value_lt : {q | value q < prime}.ncard = 16 * prime := by
  have h := ncard_value_mem (s := Set.Iio prime) fun n hn => hn.trans prime_lt
  rwa [Set.ncard_Iio_nat, Nat.mul_comm] at h

theorem ncard_not_value_lt : {q | ¬ value q < prime}.ncard = 2 ^ 256 - 16 * prime := by
  rw [← ncard_value_lt, ← card, ← Set.ncard_compl]
  rfl

def cut (n : ℕ) : (Fin (n * 4) → UInt64) ≃ (Fin n → Fin 4 → UInt64) :=
  (Equiv.arrowCongr finProdFinEquiv.symm (Equiv.refl UInt64)).trans (Equiv.curry _ _ _)

theorem cut_apply {n : ℕ} (q : Fin (n * 4) → UInt64) (j : Fin n) (r : Fin 4) :
    cut n q j r = q (finProdFinEquiv (j, r)) := rfl

theorem candidateValue_ofFn {n : ℕ} (q : Fin (n * 4) → UInt64) (j : Fin n) :
    WordTape.candidateValue (WordTape.ofList (List.ofFn q)).word j = value (cut n q j) := by
  have hword (r : Fin 4) :
      (WordTape.ofList (List.ofFn q)).word (4 * j + r) = cut n q j r := by
    have hlt : 4 * j.val + r.val < n * 4 := by omega
    rw [WordTape.word_ofList, List.getD_eq_getElem?_getD, List.getElem?_ofFn, dif_pos hlt,
      Option.getD_some, cut_apply]
    congr 1
    ext
    exact Nat.add_comm _ _
  rw [value_eq, ← hword, ← hword, ← hword, ← hword]
  rfl

theorem ncard_univ_pi {A : Type} {n : ℕ} (s : Fin n → Set A) :
    (Set.univ.pi s).ncard = ∏ j, (s j).ncard := by
  rw [← Nat.card_coe_set_eq, Nat.card_congr (Equiv.Set.univPi s), Nat.card_pi]
  simp only [Nat.card_coe_set_eq]

theorem ncard_rejections (k : ℕ) (x : Felt) :
    {q : Fin ((k + 1) * 4) → UInt64 |
      (∀ j : Fin k, ¬ value (cut (k + 1) q j.castSucc) < prime) ∧
        value (cut (k + 1) q (Fin.last k)) = x.toNat}.ncard = (2 ^ 256 - 16 * prime) ^ k * 16 := by
  let s : Fin (k + 1) → Set (Fin 4 → UInt64) :=
    Fin.lastCases {q | value q = x.toNat} fun _ => {q | ¬ value q < prime}
  calc _ = (Set.preimage (cut (k + 1)) (Set.univ.pi s)).ncard := by
        congr 1
        ext q
        simp only [Set.mem_preimage, Set.mem_univ_pi, Fin.forall_iff_castSucc, s,
          Fin.lastCases_last, Fin.lastCases_castSucc]
        exact and_comm
    _ = (Set.univ.pi s).ncard := Set.ncard_preimage_of_injective_subset_range (cut _).injective
        ((cut _).range_eq_univ ▸ Set.subset_univ _)
    _ = (∏ j : Fin k, (s j.castSucc).ncard) * (s (Fin.last k)).ncard := by
        rw [ncard_univ_pi, Fin.prod_univ_castSucc]
    _ = (2 ^ 256 - 16 * prime) ^ k * 16 := by
        simp only [s, Fin.lastCases_last, Fin.lastCases_castSucc, ncard_value_eq,
          ncard_not_value_lt, Fin.prod_const]

end Quadruple

namespace Felt

open WordTape Quadruple

theorem sample?_ends_iff {w : ℕ → UInt64} {k : ℕ} {x : Felt} :
    sample? (k + 1) ⟨w, 0⟩ = some (x, ⟨w, 4 * (k + 1)⟩) ↔
      (∀ j < k, ¬ Accepted w j) ∧ candidateValue w k = x.toNat := by
  constructor
  · intro h
    obtain ⟨k', hk', -, rfl, ht⟩ := (sample?_atCandidate_eq_some_iff (c := 0)).1 h
    have hused : 4 * (k + 1) = 4 * (k' + 1) := congrArg used ht
    obtain rfl : k = k' := by omega
    exact ⟨fun j hj => hk'.rejected j (Nat.zero_le j) hj, (toNat_ofCandidate hk'.accepted).symm⟩
  · rintro ⟨hrejected, hvalue⟩
    have hk : FirstFrom w 0 k := by
      refine ⟨Nat.zero_le k, ?_, fun j _ hj => hrejected j hj⟩
      rw [Accepted, hvalue]
      exact toNat_lt x
    refine (sample?_atCandidate_eq_some_iff (c := 0)).2 ⟨k, hk, by omega, ?_, rfl⟩
    rw [← toNat_inj, toNat_ofCandidate hk.accepted, hvalue]

/-- After any number of rejected candidates all elements come of equally many words. -/
theorem ncard_sample? (k : ℕ) (x : Felt) :
    {q : Fin ((k + 1) * 4) → UInt64 | sample? (k + 1) (ofList (List.ofFn q)) =
      some (x, ⟨(ofList (List.ofFn q)).word, 4 * (k + 1)⟩)}.ncard =
        (2 ^ 256 - 16 * prime) ^ k * 16 := by
  rw [← ncard_rejections k x]
  congr 1
  ext q
  refine sample?_ends_iff.trans (and_congr ?_ ?_)
  · rw [Fin.forall_iff]
    refine forall₂_congr fun j hj => not_congr ?_
    rw [← candidateValue_ofFn]
    rfl
  · rw [← candidateValue_ofFn]
    rfl

theorem sample?_one (w : ℕ → UInt64) :
    sample? 1 ⟨w, 0⟩ = if Accepted w 0 then some (ofCandidate w 0, ⟨w, 4⟩) else none := by
  simp only [← candidate_lt_iff]
  rfl

theorem exists_sample?_one_iff {w : ℕ → UInt64} {x : Felt} :
    (∃ t, sample? 1 ⟨w, 0⟩ = some (x, t)) ↔ candidateValue w 0 = x.toNat := by
  constructor
  · rintro ⟨t, h⟩
    rw [sample?_one, Option.ite_none_right_eq_some, Option.some_inj] at h
    obtain ⟨haccepted, hpair⟩ := h
    obtain rfl : ofCandidate w 0 = x := congrArg Prod.fst hpair
    exact (toNat_ofCandidate haccepted).symm
  · intro h
    exact ⟨_, sample?_ends_iff.2 ⟨fun j hj => absurd hj (Nat.not_lt_zero j), h⟩⟩

theorem isSome_sample?_one_iff {w : ℕ → UInt64} :
    (sample? 1 ⟨w, 0⟩).isSome ↔ Accepted w 0 := by
  rw [sample?_one, Option.isSome_ite]

theorem ncard_first_draw (x : Felt) :
    {q : Fin 4 → UInt64 | ∃ t, sample? 1 (ofList (List.ofFn q)) = some (x, t)}.ncard = 16 := by
  rw [← ncard_value_eq x]
  congr 1
  ext q
  exact exists_sample?_one_iff

theorem ncard_accepted :
    {q : Fin 4 → UInt64 | (sample? 1 (ofList (List.ofFn q))).isSome}.ncard = 16 * prime := by
  rw [← ncard_value_lt]
  congr 1
  ext q
  exact isSome_sample?_one_iff

/-- The share of the words of `k + 1` candidates with which the last of them ends the draw, with
element `x`. -/
noncomputable def share (x : Felt) (k : ℕ) : ℝ :=
  {q : Fin ((k + 1) * 4) → UInt64 | sample? (k + 1) (ofList (List.ofFn q)) =
    some (x, ⟨(ofList (List.ofFn q)).word, 4 * (k + 1)⟩)}.ncard /
      Nat.card (Fin ((k + 1) * 4) → UInt64)

/-- Each rejection takes the share of the rejected candidates. -/
theorem share_eq (x : Felt) (k : ℕ) :
    share x k = 16 / 2 ^ 256 * (1 - 16 * prime / 2 ^ 256) ^ k := by
  have hcard : Nat.card (Fin ((k + 1) * 4) → UInt64) = (2 ^ 256) ^ (k + 1) := by
    rw [Nat.card_congr (cut (k + 1)), Nat.card_pi, Fin.prod_const, Quadruple.card]
  have hrejected : ((2 ^ 256 - 16 * prime : ℕ) : ℝ) = 2 ^ 256 - 16 * prime := by
    rw [Nat.cast_sub (by decide), Nat.cast_pow, Nat.cast_mul, Nat.cast_ofNat, Nat.cast_ofNat]
  have hbase : (1 - 16 * prime / 2 ^ 256 : ℝ) = (2 ^ 256 - 16 * prime) / 2 ^ 256 := by
    rw [sub_div, div_self (by positivity)]
  calc share x k
      = (2 ^ 256 - 16 * prime) ^ k * 16 / (2 ^ 256) ^ (k + 1) := by
        rw [share, ncard_sample?, hcard, Nat.cast_mul, Nat.cast_pow, hrejected, Nat.cast_pow,
          Nat.cast_pow, Nat.cast_ofNat, Nat.cast_ofNat]
    _ = 16 / 2 ^ 256 * (1 - 16 * prime / 2 ^ 256) ^ k := by
        rw [hbase, div_pow, div_mul_div_comm, ← pow_succ', mul_comm]

/-- However many candidates a draw takes, each element is its answer with the same probability. -/
theorem hasSum_share (x : Felt) : HasSum (share x) (1 / prime) := by
  have hprime : (0 : ℝ) < prime := by exact_mod_cast (by decide : 0 < prime)
  have hpos : (0 : ℝ) < 16 * prime / 2 ^ 256 := by positivity
  have hle : (16 * prime / 2 ^ 256 : ℝ) ≤ 1 := by
    rw [div_le_one (by positivity)]
    exact_mod_cast (by decide : 16 * prime ≤ 2 ^ 256)
  have hsum := (hasSum_geometric_of_lt_one (sub_nonneg.2 hle) (sub_lt_self 1 hpos)).mul_left
    (16 / 2 ^ 256)
  rw [sub_sub_cancel, inv_div, div_mul_div_cancel₀ (by positivity),
    div_mul_cancel_left₀ (by norm_num), ← one_div] at hsum
  exact hsum.congr_fun (fun k => share_eq x k)

/-- A draw answers the first candidate below the prime and uses the words of the candidates up to
its end, and draws in turn answer the accepted candidates in turn. Given words with zeros behind
them are at most one candidate short of a draw. Of the `2 ^ 256` quadruples of words 16 lead to each
element at the first candidate, and a draw from uniform words is uniform. -/
theorem sampling_exact :
    (∀ (w : ℕ → UInt64) (k : ℕ), IsLeast {j | candidateValue w j < prime} k →
      ∃ x : Felt, x.toNat = candidateValue w k ∧
        (∀ y t, Draws ⟨w, 0⟩ y t ↔ y = x ∧ t = ⟨w, 4 * (k + 1)⟩) ∧
        ∀ attempts, sample? attempts ⟨w, 0⟩ =
          if k < attempts then some (x, ⟨w, 4 * (k + 1)⟩) else none) ∧
    (∀ (w : ℕ → UInt64) (count : ℕ) (draws : List (Felt × ℕ)),
      (∃ attempts, samples? attempts count ⟨w, 0⟩ = some draws) ↔
        ∃ n, (acceptedFrom w 0 n).length = count ∧ draws.map (Prod.map toNat id) =
          (acceptedFrom w 0 n).map fun k => (candidateValue w k, 4 * (k + 1))) ∧
    (∀ words : List UInt64,
      (∃ k x, k + 1 ≤ (words.length + 3) / 4 + 1 ∧
        Draws (ofList words) x ⟨(ofList words).word, 4 * (k + 1)⟩) ∧
      ∀ count, ∃ draws n, samplesOfList? words count = some draws ∧
        (acceptedFrom (ofList words).word 0 n).length = count ∧ draws.map (Prod.map toNat id) =
          (acceptedFrom (ofList words).word 0 n).map fun k =>
            (candidateValue (ofList words).word k, 4 * (k + 1))) ∧
    Nat.card (Fin 4 → UInt64) = 2 ^ 256 ∧
    (∀ x : Felt,
      {q : Fin 4 → UInt64 | ∃ t, sample? 1 (ofList (List.ofFn q)) = some (x, t)}.ncard = 16) ∧
    {q : Fin 4 → UInt64 | (sample? 1 (ofList (List.ofFn q))).isSome}.ncard = 16 * prime ∧
    ∀ x : Felt, HasSum (share x) (1 / prime) := by
  refine ⟨fun w k hk => ?_, fun w count draws => ?_, fun words => ⟨?_, fun count => ?_⟩,
    Quadruple.card, ncard_first_draw, ncard_accepted, hasSum_share⟩
  · have hfirst : FirstFrom w 0 k :=
      ⟨Nat.zero_le k, hk.1, fun j _ hj hacc => absurd (hk.2 hacc) (not_le.2 hj)⟩
    refine ⟨ofCandidate w k, toNat_ofCandidate hk.1, draws_of_firstFrom hfirst, fun attempts => ?_⟩
    exact (sample?_of_firstFrom hfirst attempts).trans (by rw [Nat.zero_add]; rfl)
  · refine (exists_samples?_eq_some_iff (c := 0)).trans (exists_congr fun n => ?_)
    exact and_congr_right fun _ => map_drawn_eq_iff
  · obtain ⟨k, hlt, hk⟩ := exists_firstFrom_word_ofList words 0
    rw [Nat.zero_add] at hlt
    exact ⟨k, ofCandidate _ k, hlt, (draws_of_firstFrom hk _ _).2 ⟨rfl, rfl⟩⟩
  · obtain ⟨n, hcount, hdraws⟩ := exists_samplesOfList?_eq words count
    exact ⟨_, n, hdraws, hcount, map_drawn_eq_iff.1 rfl⟩

end Felt

end FieldSponge
