import FieldSponge.UInt256.Render
import Mathlib.Tactic.Ring

/-! The numerals of 256-bit integers. A numeral that is put together from pieces, all but the first
padded to their width, is that of the number whose digits in the greater base are the pieces. -/
namespace FieldSponge

namespace Numeral

theorem padded_succ {base : ℕ} (hb : 1 < base) (width n : ℕ) : padded base (width + 2) n =
    padded base (width + 1) (n / base) ++ [(n % base).digitChar] := by
  rcases Nat.lt_or_ge n base with h | h
  · rw [padded, padded, Nat.div_eq_of_lt h, Nat.mod_eq_of_lt h, Nat.toDigits_of_lt_base h,
      Nat.toDigits_zero]
    simp [List.leftpad, List.replicate_succ']
  · rw [padded, padded, Nat.toDigits_of_base_le hb h]
    simp [List.leftpad]

theorem toDigits_append_padded {base n : ℕ} (hb : 1 < base) (hn : 0 < n) {width m : ℕ}
    (hw : 0 < width) (hm : m < base ^ width) :
    Nat.toDigits base n ++ padded base width m = Nat.toDigits base (base ^ width * n + m) := by
  induction width generalizing m with
  | zero => exact absurd hw (Nat.lt_irrefl 0)
  | succ width ih =>
    cases width with
    | zero =>
      rw [pow_one] at hm
      rw [padded, Nat.toDigits_of_lt_base hm, pow_one, ← Nat.toDigits_append_toDigits hb hn hm,
        Nat.toDigits_of_lt_base hm]
      rfl
    | succ width =>
      have hlast : m % base < base := Nat.mod_lt m (Nat.lt_of_succ_lt hb)
      have hrest : m / base < base ^ (width + 1) :=
        Nat.div_lt_of_lt_mul (by rwa [← pow_succ'])
      have hsplit : base ^ (width + 2) * n + m =
          base * (base ^ (width + 1) * n + m / base) + m % base := by
        conv_lhs => rw [← Nat.div_add_mod m base]
        ring
      have hpos : 0 < base ^ (width + 1) * n + m / base :=
        Nat.add_pos_left (Nat.mul_pos (Nat.pow_pos (Nat.lt_of_succ_lt hb)) hn) _
      rw [padded_succ hb, ← List.append_assoc, ih (Nat.succ_pos width) hrest, hsplit,
        ← Nat.toDigits_append_toDigits hb hpos hlast, Nat.toDigits_of_lt_base hlast]

end Numeral

namespace UInt256

/-- The number of which the pieces are the digits in base `weight`, the greatest weight first. -/
def ofPieces (weight : ℕ) (pieces : List UInt64) : ℕ :=
  pieces.foldl (fun n w => weight * n + w.toNat) 0

theorem ofPieces_dropWhile (weight : ℕ) (pieces : List UInt64) :
    ofPieces weight (pieces.dropWhile (· == 0)) = ofPieces weight pieces := by
  induction pieces with
  | nil => rfl
  | cons w pieces ih =>
    by_cases h : w = 0
    · subst h
      rw [List.dropWhile_cons_of_pos (by rfl), ih]
      rfl
    · rw [List.dropWhile_cons_of_neg (by simpa using h)]

theorem toDigits_append_pieces {base width n : ℕ} (hb : 1 < base) (hw : 0 < width) (hn : 0 < n)
    {pieces : List UInt64} (h : ∀ w ∈ pieces, w.toNat < base ^ width) :
    Nat.toDigits base n ++ (pieces.flatMap fun w => Numeral.padded base width w.toNat) =
      Nat.toDigits base (pieces.foldl (fun n w => base ^ width * n + w.toNat) n) := by
  induction pieces generalizing n with
  | nil => exact List.append_nil _
  | cons w pieces ih =>
    have hpos : 0 < base ^ width * n + w.toNat :=
      Nat.add_pos_left (Nat.mul_pos (Nat.pow_pos (Nat.lt_of_succ_lt hb)) hn) _
    rw [List.flatMap_cons, ← List.append_assoc,
      Numeral.toDigits_append_padded hb hn hw (h w List.mem_cons_self),
      ih hpos fun w hw => h w (List.mem_cons_of_mem _ hw), List.foldl_cons]

/-- Pieces below their weight, the first of them not zero, are joined to the numeral of their
number. -/
theorem joinPieces_eq_toDigits {base width : ℕ} (hb : 1 < base) (hw : 0 < width)
    {pieces : List UInt64} (h : ∀ w ∈ pieces, w.toNat < base ^ width)
    (htop : pieces.head? ≠ some 0) :
    joinPieces base width pieces = Nat.toDigits base (ofPieces (base ^ width) pieces) := by
  cases pieces with
  | nil => exact (Nat.toDigits_zero base).symm
  | cons top rest =>
    have hpos : 0 < top.toNat := by
      refine Nat.pos_of_ne_zero fun hzero => htop ?_
      rw [List.head?_cons, UInt64.toNat_inj.1 (hzero.trans UInt64.toNat_zero.symm)]
    rw [joinPieces, toDigits_append_pieces hb hw hpos fun w hw => h w (List.mem_cons_of_mem _ hw),
      ofPieces, List.foldl_cons, Nat.mul_zero, Nat.zero_add]

/-- Any pieces below their weight are joined to the numeral of their number without the zeros in
front. -/
theorem joinPieces_dropWhile {base width : ℕ} (hb : 1 < base) (hw : 0 < width)
    {pieces : List UInt64} (h : ∀ w ∈ pieces, w.toNat < base ^ width) :
    joinPieces base width (pieces.dropWhile (· == 0)) =
      Nat.toDigits base (ofPieces (base ^ width) pieces) := by
  have htop : (pieces.dropWhile (· == 0)).head? ≠ some 0 := fun hzero => by
    have hnot := List.head?_dropWhile_not (· == 0) pieces
    rw [hzero] at hnot
    exact absurd hnot (by decide)
  have hall : ∀ w ∈ pieces.dropWhile (· == 0), w.toNat < base ^ width :=
    fun w hmem => h w ((List.dropWhile_sublist _).subset hmem)
  rw [joinPieces_eq_toDigits hb hw hall htop, ofPieces_dropWhile]

theorem hexDigits_eq_toDigits (a : UInt256) : a.hexDigits = Nat.toDigits 16 a.toNat := by
  have hsmall : ∀ w : UInt64, w.toNat < 16 ^ 16 := fun w => w.toNat_lt
  have hvalue : ofPieces (16 ^ 16) [a.w3, a.w2, a.w1, a.w0] = a.toNat := by
    simp only [ofPieces, List.foldl_cons, List.foldl_nil, toNat, UInt64.size]
    ring
  rw [hexDigits, joinPieces_dropWhile (by decide) (by decide) fun w _ => hsmall w, hvalue]

theorem toNat_lt_of_mem_decimalChunks {a : UInt256} {w : UInt64} (h : w ∈ a.decimalChunks) :
    w.toNat < 10 ^ 19 := by
  fun_induction decimalChunks a with
  | case1 => exact absurd h List.not_mem_nil
  | case2 a ha _ ih =>
    rcases List.mem_cons.1 h with rfl | h
    · exact UInt64.lt_iff_toNat_lt.1 (divModWord_exact a (d := decimalChunk) (by decide)).2
    · exact ih h

theorem foldr_decimalChunks (a : UInt256) :
    a.decimalChunks.foldr (fun w n => 10 ^ 19 * n + w.toNat) 0 = a.toNat := by
  fun_induction decimalChunks a with
  | case1 => rfl
  | case2 a ha _ ih =>
    rw [List.foldr_cons, ih, (divModWord_exact a (d := decimalChunk) (by decide)).1, Nat.mul_comm]
    rfl

/-- The last chunk is what is left of a number that is not zero. -/
theorem getLast?_decimalChunks (a : UInt256) : a.decimalChunks.getLast? ≠ some 0 := by
  fun_induction decimalChunks a with
  | case1 => nofun
  | case2 a ha _ ih =>
    rw [List.getLast?_cons, ne_eq, Option.some_inj]
    cases hlast : (divModWord a decimalChunk).1.decimalChunks.getLast? with
    | some w => exact fun h => ih (by rw [hlast, ← h, Option.getD_some])
    | none =>
      -- No chunk is left above, so the number is its own last chunk.
      intro h
      rw [Option.getD_none] at h
      have hquotient : (divModWord a decimalChunk).1.toNat = 0 := by
        rw [← foldr_decimalChunks, List.getLast?_eq_none_iff.1 hlast, List.foldr_nil]
      have hdivision := (divModWord_exact a (d := decimalChunk) (by decide)).1
      rw [hquotient, h, Nat.zero_mul, UInt64.toNat_zero] at hdivision
      exact ha (eq_zero_iff.2 hdivision)

theorem decimalDigits_eq_toDigits (a : UInt256) : a.decimalDigits = Nat.toDigits 10 a.toNat := by
  have hvalue : ofPieces (10 ^ 19) a.decimalChunks.reverse = a.toNat := by
    rw [ofPieces, List.foldl_reverse, foldr_decimalChunks]
  rw [decimalDigits, joinPieces_eq_toDigits (by decide) (by decide)
    (fun w hw => toNat_lt_of_mem_decimalChunks (List.mem_reverse.1 hw))
    (by rw [List.head?_reverse]; exact getLast?_decimalChunks a), hvalue]

theorem toList_toDecimal (a : UInt256) : a.toDecimal.toList = Nat.toDigits 10 a.toNat := by
  rw [toDecimal, render, String.toList_ofList, decimalDigits_eq_toDigits]

theorem toList_render_hexadecimal (letters : LetterCase) (marked : Bool) (a : UInt256) :
    (a.render (.hexadecimal letters marked)).toList = (if marked then Numeral.hexMark else []) ++
      Numeral.withCase letters (Nat.toDigits 16 a.toNat) := by
  rw [render, String.toList_ofList, hexDigits_eq_toDigits]

end UInt256

end FieldSponge
