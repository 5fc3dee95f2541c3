import FieldSponge.UInt256.Division
import Mathlib.Tactic.NormNum

/-! Division of 256-bit integers with nothing lost. The quotient and the remainder of the long
division are those of the integers, and a pass of it is exact even when the doubled remainder needs
one bit more than there are. The division by a word is followed with dividends of any size: each of
its passes has a quotient that fits in a word, and its result is that of the long division. -/
namespace FieldSponge

namespace Word

/-- The numbers that are divided in the passes over words, as integers of any size: each word with
the remainder `r` above it. -/
def dividends (d : ℕ) : ℕ → List UInt64 → List ℕ
  | _, [] => []
  | r, w :: ws =>
    let n := w.toNat + UInt64.size * r
    n :: dividends d (n % d) ws

/-- A pass leaves a remainder below the divisor, so no dividend reaches the divisor times the word
size. -/
theorem lt_of_mem_dividends {d r : ℕ} (hr : r < d) {ws : List UInt64} {m : ℕ}
    (hm : m ∈ dividends d r ws) : m < UInt64.size * d := by
  induction ws generalizing r with
  | nil => cases hm
  | cons w ws ih =>
    rw [dividends, List.mem_cons] at hm
    rcases hm with rfl | hm
    · have hw : w.toNat < UInt64.size := w.toNat_lt
      have hle : UInt64.size * (r + 1) ≤ UInt64.size * d := Nat.mul_le_mul_left _ hr
      rw [Nat.mul_succ] at hle
      omega
    · exact ih (Nat.mod_lt _ (Nat.zero_lt_of_lt hr)) hm

theorem div_lt_of_mem_dividends {d r : ℕ} (hr : r < d) {ws : List UInt64} {m : ℕ}
    (hm : m ∈ dividends d r ws) : m / d < UInt64.size :=
  Nat.div_lt_of_lt_mul (Nat.mul_comm _ d ▸ lt_of_mem_dividends hr hm)

theorem map_toNat_divModWords {d r : UInt64} (hr : r < d) (ws : List UInt64) :
    (divModWords d r ws).1.map UInt64.toNat =
      (dividends d.toNat r.toNat ws).map (· / d.toNat) := by
  induction ws generalizing r with
  | nil => rfl
  | cons w ws ih =>
    obtain ⟨hq, hr'⟩ := divMod_exact (n := ⟨w, r⟩) hr
    have hrest := ih (snd_divMod_lt (n := ⟨w, r⟩) hr)
    rw [hr'] at hrest
    rw [divModWords, List.map_cons, hq, hrest]
    rfl

end Word

namespace UInt256

theorem divMod?_eq_none_iff {n d : UInt256} : n.divMod? d = none ↔ d = 0 := by
  rw [divMod?_eq, eq_zero_iff]
  split <;> simp [*]

theorem divMod?_eq_some_iff {n d q r : UInt256} : n.divMod? d = some (q, r) ↔
    n.toNat = q.toNat * d.toNat + r.toNat ∧ r.toNat < d.toNat := by
  have hn := n.toNat_lt
  rw [divMod?_eq]
  split
  · rename_i hd
    simp [hd]
  · rename_i hd
    have hpos : 0 < d.toNat := Nat.pos_of_ne_zero hd
    have hq : n.toNat / d.toNat < size := Nat.lt_of_le_of_lt (Nat.div_le_self _ _) hn
    have hr : n.toNat % d.toNat < size := Nat.lt_of_le_of_lt (Nat.mod_le _ _) hn
    rw [Option.some.injEq, Prod.mk.injEq, ← toNat_inj, ← toNat_inj, toNat_ofNat, toNat_ofNat,
      Nat.mod_eq_of_lt hq, Nat.mod_eq_of_lt hr, Nat.div_mod_unique hpos, Nat.mul_comm,
      Nat.add_comm, eq_comm]

theorem toNat_of_divMod?_eq_some {n d q r : UInt256} (h : n.divMod? d = some (q, r)) :
    q.toNat = n.toNat / d.toNat ∧ r.toNat = n.toNat % d.toNat := by
  obtain ⟨hn, hr⟩ := divMod?_eq_some_iff.1 h
  have hpos : 0 < d.toNat := Nat.zero_lt_of_lt hr
  constructor
  · rw [hn, Nat.mul_comm, Nat.mul_add_div hpos, Nat.div_eq_of_lt hr, Nat.add_zero]
  · rw [hn, Nat.mul_comm, Nat.mul_add_mod, Nat.mod_eq_of_lt hr]

theorem exists_divMod? {n d : UInt256} (hd : d ≠ 0) : ∃ q r, n.divMod? d = some (q, r) :=
  let ⟨(q, r), h⟩ := Option.ne_none_iff_exists'.1 (mt divMod?_eq_none_iff.1 hd)
  ⟨q, r, h⟩

theorem divModWord?_eq_none_iff {n : UInt256} {d : UInt64} : n.divModWord? d = none ↔ d = 0 := by
  rw [divModWord?]
  split <;> simp [*]

theorem ofWord_eq_zero_iff {d : UInt64} : ofWord d = 0 ↔ d = 0 := by
  rw [eq_zero_iff, toNat_ofWord, ← UInt64.toNat_inj, UInt64.toNat_zero]

theorem map_divModWord? (n : UInt256) (d : UInt64) :
    (n.divModWord? d).map (fun s => (s.1, ofWord s.2)) = n.divMod? (ofWord d) := by
  rw [divModWord?]
  split
  · rename_i hd
    exact (divMod?_eq_none_iff.2 (ofWord_eq_zero_iff.2 hd)).symm
  · rename_i hd
    obtain ⟨hn, hr⟩ := divModWord_exact n hd
    refine (divMod?_eq_some_iff.2 ⟨?_, ?_⟩).symm
    · rw [toNat_ofWord, toNat_ofWord, hn]
    · rw [toNat_ofWord, toNat_ofWord]
      exact UInt64.lt_iff_toNat_lt.1 hr

/-- What the four passes of the division by a word divide, from the top word down. -/
def dividends (n : UInt256) (d : UInt64) : List ℕ :=
  Word.dividends d.toNat 0 [n.w3, n.w2, n.w1, n.w0]

/-- There is no result for a divisor of zero only, and the result is the quotient and the remainder
of the integers otherwise. A pass of the long division is exact from any remainder below the
divisor, whether or not the doubled remainder fits in 256 bits. A divisor of one word has the
same result word by word, and every pass divides less than `2 ^ 128` and has a quotient of one
word. -/
theorem division_exact :
    (∀ n d : UInt256,
      (n.divMod? d = none ↔ d = 0) ∧
      (d ≠ 0 → ∃ q r, n.divMod? d = some (q, r) ∧
        n.toNat = q.toNat * d.toNat + r.toNat ∧ r.toNat < d.toNat) ∧
      ∀ (s : LongDivision) (i : ℕ), s.remainder < d →
        (s.step n d i).remainder.toNat = (2 * s.remainder.toNat + (n.bit i).toNat) % d.toNat ∧
        (s.step n d i).quotient =
          if d.toNat ≤ 2 * s.remainder.toNat + (n.bit i).toNat then
            s.quotient ||| ((1 : UInt256) <<< i) else s.quotient) ∧
    ∀ (n : UInt256) (d : UInt64),
      (n.divModWord? d = none ↔ d = 0) ∧
      (n.divModWord? d).map (fun s => (s.1, ofWord s.2)) = n.divMod? (ofWord d) ∧
      (d ≠ 0 → ∃ q r, n.divModWord? d = some (q, r) ∧
        [q.w3, q.w2, q.w1, q.w0].map UInt64.toNat = (n.dividends d).map (· / d.toNat) ∧
        ∀ m ∈ n.dividends d, m < 2 ^ 128 ∧ m / d.toNat < 2 ^ 64) := by
  refine ⟨fun n d => ⟨divMod?_eq_none_iff, fun hd => ?_, fun s i h =>
    ⟨LongDivision.toNat_remainder_step n i h, LongDivision.quotient_step n d s i⟩⟩, fun n d =>
    ⟨divModWord?_eq_none_iff, map_divModWord? n d, fun hd => ?_⟩⟩
  · obtain ⟨q, r, hqr⟩ := exists_divMod? (n := n) hd
    exact ⟨q, r, hqr, divMod?_eq_some_iff.1 hqr⟩
  · have hpos : (0 : UInt64) < d := UInt64.pos_iff_ne_zero.2 hd
    have hwords := Word.map_toNat_divModWords hpos [n.w3, n.w2, n.w1, n.w0]
    rw [divModWords_eq] at hwords
    refine ⟨_, _, if_neg hd, hwords, fun m hm => ⟨?_, ?_⟩⟩
    · have hlt := Word.lt_of_mem_dividends (UInt64.lt_iff_toNat_lt.1 hpos) hm
      have hdl := d.toNat_lt
      simp only [UInt64.size] at hlt
      omega
    · exact Word.div_lt_of_mem_dividends (UInt64.lt_iff_toNat_lt.1 hpos) hm

end UInt256

end FieldSponge
