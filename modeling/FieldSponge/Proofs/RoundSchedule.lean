import FieldSponge.Proofs.RoundBijections

/-! Which row a round reads. One counter goes through three loops, and a round adds the row that the
counter stands at. Here every row and every element is looked up, and the rows are noted as they are
read. With one row for each round nothing is missing, and what the loops leave is the permuted
state. -/
namespace FieldSponge
namespace Hades

/-- What can stop the rounds: a table of another length, a row or an element that is not there, or
a counter that does not end at the number of rounds. -/
inductive Fault where
  | table (e : RowMismatch)
  | row (index : ℕ)
  | element (index : ℕ)
  | counter (round : ℕ)
deriving DecidableEq, Repr

structure Counted (width : ℕ) where
  state : State width
  round : ℕ
  used : List ℕ

variable {width : ℕ}

def rowAt (rows : List (State width)) (i : ℕ) : Except Fault (State width) :=
  match rows[i]? with
  | some row => .ok row
  | none => .error (.row i)

namespace Layers

variable (layers : Layers width)

def raiseAt : RoundKind → State width → Except Fault (State width)
  | .full, s => .ok (s.map layers.power)
  | .single, s =>
    if hi : layers.singleIndex.val < width then
      .ok (s.set layers.singleIndex (layers.power s[layers.singleIndex]))
    else .error (.element layers.singleIndex)

/-- The round that the counter stands at. -/
def countedRound (kind : RoundKind) (rows : List (State width)) (c : Counted width) :
    Except Fault (Counted width) := do
  let row ← rowAt rows c.round
  let raised ← layers.raiseAt kind (addRow row c.state)
  return ⟨layers.mix raised, c.round + 1, c.used ++ [c.round]⟩

def countedRounds (kind : RoundKind) (rows : List (State width)) :
    ℕ → Counted width → Except Fault (Counted width)
  | 0, c => .ok c
  | n + 1, c => do countedRounds kind rows n (← layers.countedRound kind rows c)

end Layers

/-- The three loops, when the table has one row for each round. -/
def permuteCounted (h : Hades width) (s : State width) : Except Fault (Counted width) :=
  if h.constants.length = h.schedule.rounds then do
    let c ← h.layers.countedRounds .full h.constants h.schedule.fullPerSide ⟨s, 0, []⟩
    let c ← h.layers.countedRounds .single h.constants h.schedule.singles c
    let c ← h.layers.countedRounds .full h.constants h.schedule.fullPerSide c
    if c.round = h.schedule.rounds then .ok c else .error (.counter c.round)
  else .error (.table ⟨h.constants.length, h.schedule.rounds⟩)

theorem rowAt_eq {rows : List (State width)} {i : ℕ} {r : State width} (hr : rows[i]? = some r) :
    rowAt rows i = .ok r := by
  rw [rowAt, hr]

namespace Layers

variable (layers : Layers width)

theorem raiseAt_eq (kind : RoundKind) (s : State width) :
    layers.raiseAt kind s = .ok (layers.raise kind s) := by
  cases kind with
  | full => rfl
  | single => exact dif_pos layers.singleIndex.isLt

theorem countedRound_eq (kind : RoundKind) {rows : List (State width)} {i : ℕ} {r : State width}
    (hr : rows[i]? = some r) (s : State width) (used : List ℕ) :
    layers.countedRound kind rows ⟨s, i, used⟩ =
      .ok ⟨layers.round kind r s, i + 1, used ++ [i]⟩ := by
  simp only [countedRound, rowAt_eq hr, raiseAt_eq, round]
  rfl

/-- Rounds of one kind lead from each state of a sequence to the next, and read one row after the
other. -/
theorem countedRounds_eq (kind : RoundKind) (rows : List (State width)) (x : ℕ → State width)
    (i n : ℕ) (hx : ∀ j, i ≤ j → j < i + n →
      ∃ r, rows[j]? = some r ∧ x (j + 1) = layers.round kind r (x j)) :
    layers.countedRounds kind rows n ⟨x i, i, List.range i⟩ =
      .ok ⟨x (i + n), i + n, List.range (i + n)⟩ := by
  -- The loop begins at any counter, so that the first round leaves a shorter loop.
  induction n generalizing i with
  | zero => rfl
  | succ n ih =>
    obtain ⟨r, hr, hi⟩ := hx i le_rfl (by omega)
    have ih := ih (i + 1) fun j hij hj => hx j (by omega) (by omega)
    rw [Nat.add_right_comm, hi, List.range_succ] at ih
    rw [countedRounds, layers.countedRound_eq kind hr]
    exact ih

theorem run_take_succ {kinds : List RoundKind} {rows : List (State width)} {i : ℕ}
    {kind : RoundKind} {r : State width} (hk : kinds[i]? = some kind) (hr : rows[i]? = some r)
    (s : State width) : layers.run (kinds.take (i + 1)) (rows.take (i + 1)) s =
      layers.round kind r (layers.run (kinds.take i) (rows.take i) s) := by
  have hkl := (List.getElem?_eq_some_iff.1 hk).1
  have hrl := (List.getElem?_eq_some_iff.1 hr).1
  have hl : (kinds.take i).length = (rows.take i).length := by
    rw [List.length_take_of_le hkl.le, List.length_take_of_le hrl.le]
  rw [run, run, List.take_add_one, List.take_add_one, hk, hr, List.zip_append hl,
    List.foldl_append]
  rfl

end Layers

theorem Schedule.getElem?_kinds (s : Schedule) {i : ℕ} (hi : i < s.rounds) : s.kinds[i]? = some
    (if i < s.fullPerSide ∨ s.fullPerSide + s.singles ≤ i then .full else .single) := by
  rw [rounds] at hi
  simp only [kinds, List.getElem?_append, List.length_append, List.length_replicate,
    List.getElem?_replicate]
  grind

def stateAfter (h : Hades width) (s : State width) (i : ℕ) : State width :=
  h.layers.run (h.schedule.kinds.take i) (h.constants.take i) s

theorem stateAfter_succ (h : Hades width) (s : State width) {i : ℕ} {kind : RoundKind}
    {r : State width} (hk : h.schedule.kinds[i]? = some kind) (hr : h.constants[i]? = some r) :
    h.stateAfter s (i + 1) = h.layers.round kind r (h.stateAfter s i) :=
  h.layers.run_take_succ hk hr s

theorem residues_raise (h : Hades width) (kind : RoundKind) (s : State width) (j : Fin width) :
    residues (h.layers.raise kind s) j =
      if kind = .full ∨ j = h.singleIndex then residues s j ^ h.exponent.toNat
      else residues s j := by
  have hpower : (h.layers.power s[j.val]).toZMod = residues s j ^ h.exponent.toNat :=
    Felt.toZMod_powWord s[j.val] h.exponent
  have hraise := congrArg Felt.toZMod (h.layers.getElem_raise kind s j j.isLt)
  rw [apply_ite Felt.toZMod, hpower] at hraise
  exact hraise.trans (if_congr (or_congr_right Fin.ext_iff.symm) rfl rfl)

/-- One round: the residues are raised as the schedule says and multiplied by the matrix. -/
theorem residues_stateAfter_succ (h : Hades width) (s : State width) {i : ℕ}
    (hi : i < h.schedule.rounds) {r : State width} (hr : h.constants[i]? = some r) :
    residues (h.stateAfter s (i + 1)) = (residueMatrix h.matrix).mulVec fun j =>
      if i < h.schedule.fullPerSide ∨ h.schedule.fullPerSide + h.schedule.singles ≤ i ∨
        j = h.singleIndex
      then (residues (h.stateAfter s i) j + residues r j) ^ h.exponent.toNat
      else residues (h.stateAfter s i) j + residues r j := by
  rw [h.stateAfter_succ s (h.schedule.getElem?_kinds hi) hr, Layers.round]
  refine (residues_matrixProduct h.matrix _).trans (congrArg _ (funext fun j => ?_))
  rw [residues_raise, residues_addRow]
  simp only [ite_eq_left_iff, reduceCtorEq, imp_false, not_not, or_assoc, Pi.add_apply]

theorem countedRounds_stateAfter (h : Hades width)
    (hrows : h.constants.length = h.schedule.rounds) (s : State width) (kind : RoundKind)
    (i n : ℕ) (hkind : ∀ j, i ≤ j → j < i + n → h.schedule.kinds[j]? = some kind) :
    h.layers.countedRounds kind h.constants n ⟨h.stateAfter s i, i, List.range i⟩ =
      .ok ⟨h.stateAfter s (i + n), i + n, List.range (i + n)⟩ := by
  apply h.layers.countedRounds_eq
  intro j hij hj
  have hk := hkind j hij hj
  have hlt := (List.getElem?_eq_some_iff.1 hk).1
  rw [Schedule.length_kinds, ← hrows] at hlt
  have hr := List.getElem?_eq_getElem hlt
  exact ⟨_, hr, h.stateAfter_succ s hk hr⟩

theorem permuteCounted_eq (h : Hades width) (hrows : h.constants.length = h.schedule.rounds)
    (s : State width) : h.permuteCounted s =
      .ok ⟨h.stateAfter s h.schedule.rounds, h.schedule.rounds, List.range h.schedule.rounds⟩ := by
  have hrounds : h.schedule.fullPerSide + h.schedule.singles + h.schedule.fullPerSide =
      h.schedule.rounds := by
    rw [Schedule.rounds]
    omega
  have hfirst := h.countedRounds_stateAfter hrows s .full 0 h.schedule.fullPerSide
    fun j _ hj => by rw [h.schedule.getElem?_kinds (by omega), if_pos (by omega)]
  have hsingle := h.countedRounds_stateAfter hrows s .single h.schedule.fullPerSide
    h.schedule.singles
    fun j hij hj => by rw [h.schedule.getElem?_kinds (by omega), if_neg (by omega)]
  have hlast := h.countedRounds_stateAfter hrows s .full
    (h.schedule.fullPerSide + h.schedule.singles) h.schedule.fullPerSide
    fun j hij hj => by rw [h.schedule.getElem?_kinds (by omega), if_pos (by omega)]
  rw [Nat.zero_add] at hfirst
  rw [hrounds] at hlast
  have hstart : h.stateAfter s 0 = s := rfl
  rw [hstart, List.range_zero] at hfirst
  rw [permuteCounted, if_pos hrows, hfirst]
  simp only [bind, Except.bind, hsingle, hlast, if_true]

theorem permute_eq_stateAfter (h : Hades width) (hrows : h.constants.length = h.schedule.rounds)
    (s : State width) : h.permute s = .ok (h.stateAfter s h.schedule.rounds) := by
  rw [permute, if_pos hrows, stateAfter, List.take_of_length_le h.schedule.length_kinds.le,
    List.take_of_length_le hrows.le]

/-- A table that has not one row for each round is refused, with its length, and nothing else is.
With one row for each round, no row and no element is missing and the counter ends at the number of
rounds. Round `i` adds row `i`, raises every element in the first and the last rounds and a single
one in the rounds between, and multiplies by the matrix, so each row is read once. -/
theorem permute_follows_schedule {width : ℕ} (h : Hades width) (s : State width) :
    (∀ e, h.permute s = .error e ↔
      h.constants.length ≠ 2 * h.schedule.fullPerSide + h.schedule.singles ∧
        e = ⟨h.constants.length, 2 * h.schedule.fullPerSide + h.schedule.singles⟩) ∧
    (∀ fault, h.permuteCounted s = .error fault ↔
      h.constants.length ≠ 2 * h.schedule.fullPerSide + h.schedule.singles ∧
        fault = .table ⟨h.constants.length, 2 * h.schedule.fullPerSide + h.schedule.singles⟩) ∧
    (h.constants.length = 2 * h.schedule.fullPerSide + h.schedule.singles →
      ∃ x : ℕ → State width, x 0 = s ∧
        (∀ i row, h.constants[i]? = some row →
          residues (x (i + 1)) = (residueMatrix h.matrix).mulVec fun j =>
            if i < h.schedule.fullPerSide ∨ h.schedule.fullPerSide + h.schedule.singles ≤ i ∨
              j = h.singleIndex
            then (residues (x i) j + residues row j) ^ h.exponent.toNat
            else residues (x i) j + residues row j) ∧
        h.permute s = .ok (x (2 * h.schedule.fullPerSide + h.schedule.singles)) ∧
        h.permuteCounted s = .ok
          { state := x (2 * h.schedule.fullPerSide + h.schedule.singles)
            round := 2 * h.schedule.fullPerSide + h.schedule.singles
            used := List.range (2 * h.schedule.fullPerSide + h.schedule.singles) }) := by
  rw [← Schedule.rounds]
  by_cases hrows : h.constants.length = h.schedule.rounds
  · have hpermute := h.permute_eq_stateAfter hrows s
    have hcounted := h.permuteCounted_eq hrows s
    refine ⟨by simp [hpermute, hrows], by simp [hcounted, hrows], fun _ => ?_⟩
    refine ⟨h.stateAfter s, rfl, fun i row hrow => ?_, hpermute, hcounted⟩
    have hi := (List.getElem?_eq_some_iff.1 hrow).1
    exact h.residues_stateAfter_succ s (hrows ▸ hi) hrow
  · have hpermute : h.permute s = .error ⟨h.constants.length, h.schedule.rounds⟩ := if_neg hrows
    have hcounted : h.permuteCounted s = .error (.table ⟨h.constants.length, h.schedule.rounds⟩) :=
      if_neg hrows
    refine ⟨by simp [hpermute, hrows, eq_comm], by simp [hcounted, hrows, eq_comm], ?_⟩
    exact fun h => absurd h hrows

end Hades

end FieldSponge
