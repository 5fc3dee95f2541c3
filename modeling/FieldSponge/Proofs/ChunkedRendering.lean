import FieldSponge.Proofs.ByteEncodings
import FieldSponge.Proofs.TextRoundTrips

/-! Numerals that are written piece by piece. Five places are enough for the chunks of a decimal
numeral, so a rendering that stores them in a table of five places finds a place for each. A
numeral of which every piece is padded is the shortest one once the zeros in front are taken away,
however wide the pieces are, so the hexadecimal digits of an element are also those of its bytes. -/
namespace FieldSponge

namespace Numeral

/-- Without the zeros in front, up to the last digit. -/
def trimmed : List Char → List Char
  | '0' :: c :: rest => trimmed (c :: rest)
  | digits => digits

theorem trimmed_zero_cons {digits : List Char} (h : digits ≠ []) :
    trimmed ('0' :: digits) = trimmed digits := by
  cases digits with
  | nil => exact absurd rfl h
  | cons c rest => rw [trimmed]

theorem trimmed_cons_of_ne {c : Char} (h : c ≠ '0') (rest : List Char) :
    trimmed (c :: rest) = c :: rest := by
  rw [trimmed]
  rintro d rest hcons
  exact absurd (List.cons.inj hcons).1 h

theorem trimmed_replicate_append (k : ℕ) {digits : List Char} (h : digits ≠ []) :
    trimmed (List.replicate k '0' ++ digits) = trimmed digits := by
  induction k with
  | zero => rfl
  | succ k ih =>
    rw [List.replicate_succ, List.cons_append,
      trimmed_zero_cons (List.append_ne_nil_of_right_ne_nil _ h), ih]

theorem head?_toDigits_eq_zero_iff {base : ℕ} (hb : 1 < base) (n : ℕ) :
    (Nat.toDigits base n).head? = some '0' ↔ n = 0 := by
  induction n using Nat.strongRecOn with
  | _ n ih =>
    rw [Nat.toDigits_eq_if hb]
    split
    · rw [List.head?_cons, Option.some_inj, Nat.digitChar_eq_zero]
    · rename_i h
      have hpos : 0 < n := Nat.pos_of_ne_zero fun hn => h (hn ▸ Nat.lt_of_succ_lt hb)
      have hquotient : n / base ≠ 0 := (Nat.div_pos (Nat.le_of_not_lt h) (Nat.lt_of_succ_lt hb)).ne'
      rw [List.head?_append_of_ne_nil _ Nat.toDigits_ne_nil, ih _ (Nat.div_lt_self hpos hb)]
      exact iff_of_false hquotient hpos.ne'

theorem trimmed_toDigits_append {base n : ℕ} (hb : 1 < base) (hn : 0 < n) (rest : List Char) :
    trimmed (Nat.toDigits base n ++ rest) = Nat.toDigits base n ++ rest := by
  have hhead := mt (head?_toDigits_eq_zero_iff hb n).1 hn.ne'
  cases hdigits : Nat.toDigits base n with
  | nil => exact absurd hdigits Nat.toDigits_ne_nil
  | cons c digits =>
    rw [hdigits, List.head?_cons, Option.some_inj] at hhead
    exact trimmed_cons_of_ne hhead _

theorem padded_ne_nil (base width n : ℕ) : padded base width n ≠ [] :=
  List.append_ne_nil_of_right_ne_nil _ Nat.toDigits_ne_nil

end Numeral

namespace UInt256

open Numeral

/-- Pieces that are all padded differ from a numeral by the zeros in front. -/
theorem trimmed_flatMap_padded {base width : ℕ} (hb : 1 < base) {pieces : List UInt64}
    (hne : pieces ≠ []) : trimmed (pieces.flatMap fun w => padded base width w.toNat) =
      joinPieces base width (pieces.dropWhile (· == 0)) := by
  induction pieces with
  | nil => exact absurd rfl hne
  | cons w pieces ih =>
    rw [List.flatMap_cons, padded, List.leftpad, List.append_assoc, trimmed_replicate_append _
      (List.append_ne_nil_of_left_ne_nil Nat.toDigits_ne_nil _)]
    by_cases hw : w = 0
    · subst hw
      rw [UInt64.toNat_zero, Nat.toDigits_zero, List.dropWhile_cons_of_pos (by rfl)]
      cases pieces with
      | nil => rfl
      | cons v pieces =>
        rw [← ih (List.cons_ne_nil _ _)]
        refine trimmed_zero_cons ?_
        rw [List.flatMap_cons]
        exact List.append_ne_nil_of_left_ne_nil (padded_ne_nil base width _) _
    · have hpos : 0 < w.toNat := Nat.pos_of_ne_zero fun h => hw (UInt64.toNat_inj.1 h)
      rw [trimmed_toDigits_append hb hpos, List.dropWhile_cons_of_neg (by simpa using hw)]
      rfl

theorem trimmed_flatMap_eq_toDigits {base width : ℕ} (hb : 1 < base) (hw : 0 < width)
    {pieces : List UInt64} (hne : pieces ≠ []) (h : ∀ w ∈ pieces, w.toNat < base ^ width) :
    trimmed (pieces.flatMap fun w => padded base width w.toNat) =
      Nat.toDigits base (ofPieces (base ^ width) pieces) := by
  rw [trimmed_flatMap_padded hb hne, joinPieces_dropWhile hb hw h]

theorem ofPieces_eq_ofDigits (weight : ℕ) (pieces : List UInt64) :
    ofPieces weight pieces = Nat.ofDigits weight (pieces.reverse.map UInt64.toNat) := by
  rw [ofPieces, Nat.ofDigits_eq_foldr, List.foldr_map, List.foldr_reverse]
  simp only [Nat.cast_id, Nat.add_comm]

/-- What stops a rendering through a table: a place that the table has not, or a division without a
result. -/
inductive TableFault where
  | place (index : ℕ)
  | division
deriving DecidableEq, Repr

/-- Five places for chunks, of which the first ones are used. -/
structure ChunkTable where
  places : Vector UInt64 5
  used : ℕ

namespace ChunkTable

def empty : ChunkTable := ⟨Vector.replicate 5 0, 0⟩

def chunks (t : ChunkTable) : List UInt64 := t.places.toList.take t.used

def store (t : ChunkTable) (w : UInt64) : Except TableFault ChunkTable :=
  if h : t.used < 5 then .ok ⟨t.places.set t.used w h, t.used + 1⟩ else .error (.place t.used)

/-- Divides until nothing is left, and stores each remainder at the next place. -/
def storeChunks (value : UInt256) (t : ChunkTable) : Except TableFault ChunkTable :=
  if hz : value = 0 then .ok t
  else
    match hdiv : value.divModWord? decimalChunk with
    | none => .error .division
    | some (q, r) =>
      have : q.toNat < value.toNat := by
        rw [divModWord?, if_neg (by decide)] at hdiv
        have hlt := toNat_fst_divModWord_lt (d := decimalChunk) hz (by decide)
        rwa [Option.some.inj hdiv] at hlt
      match t.store r with
      | .error fault => .error fault
      | .ok t => storeChunks q t
termination_by value.toNat

def digits (t : ChunkTable) : Except TableFault (List Char) :=
  if h : 0 < t.used ∧ t.used ≤ 5 then
    .ok (Nat.toDigits 10 t.places[t.used - 1].toNat ++
      (t.places.toList.take (t.used - 1)).reverse.flatMap fun w => padded 10 19 w.toNat)
  else .error (.place (t.used - 1))

theorem exists_store {t : ChunkTable} (h : t.used < 5) (w : UInt64) :
    ∃ t', t.store w = .ok t' ∧ t'.used = t.used + 1 ∧ t'.chunks = t.chunks ++ [w] := by
  refine ⟨_, dif_pos h, rfl, ?_⟩
  have hlen : t.used < t.places.toList.length := by rwa [Vector.length_toList]
  rw [chunks, chunks, Vector.toList_set, List.take_add_one, List.take_set_of_le le_rfl,
    List.getElem?_set_self hlen]
  rfl

theorem divModWord?_decimalChunk (value : UInt256) :
    value.divModWord? decimalChunk = some (value.divModWord decimalChunk) := if_neg (by decide)

theorem storeChunks_zero (t : ChunkTable) : storeChunks 0 t = .ok t := by
  rw [storeChunks, dif_pos rfl]

/-- A pass divides what is left, stores the remainder and goes on with the quotient. -/
theorem storeChunks_of_ne {value : UInt256} (hz : value ≠ 0) {t t' : ChunkTable}
    (h : t.store (value.divModWord decimalChunk).2 = .ok t') :
    storeChunks value t = storeChunks (value.divModWord decimalChunk).1 t' := by
  rw [storeChunks, dif_neg hz]
  split
  · rename_i hdiv
    rw [divModWord?_decimalChunk] at hdiv
    cases hdiv
  · rename_i q r hdiv
    have heq := Option.some.inj ((divModWord?_decimalChunk value).symm.trans hdiv)
    rw [heq] at h ⊢
    simp only [h]

theorem exists_storeChunks (value : UInt256) {t : ChunkTable}
    (h : t.used + value.decimalChunks.length ≤ 5) :
    ∃ t', storeChunks value t = .ok t' ∧ t'.used = t.used + value.decimalChunks.length ∧
      t'.chunks = t.chunks ++ value.decimalChunks := by
  fun_induction decimalChunks value generalizing t with
  | case1 => exact ⟨t, storeChunks_zero t, rfl, (List.append_nil _).symm⟩
  | case2 value hz _ ih =>
    rw [List.length_cons] at h
    obtain ⟨s, hstore, hused, hchunks⟩ :=
      exists_store (by omega : t.used < 5) (value.divModWord decimalChunk).2
    obtain ⟨t', hrest, hused', hchunks'⟩ := ih (t := s) (by omega)
    refine ⟨t', (storeChunks_of_ne hz hstore).trans hrest, ?_, ?_⟩
    · rw [hused', hused, List.length_cons]
      omega
    · rw [hchunks', hchunks, List.append_assoc, List.singleton_append]

theorem digits_eq {t : ChunkTable} (hpos : 0 < t.used) (hle : t.used ≤ 5) :
    t.digits = .ok (joinPieces 10 19 t.chunks.reverse) := by
  have hlast : t.chunks = t.places.toList.take (t.used - 1) ++ [t.places[t.used - 1]] := by
    have hlen : t.used - 1 < t.places.toList.length := by
      rw [Vector.length_toList]
      omega
    rw [← Vector.getElem_toList hlen, ← List.take_succ_eq_append_getElem hlen,
      Nat.sub_add_cancel hpos, chunks]
  rw [digits, dif_pos ⟨hpos, hle⟩, hlast, List.reverse_append]
  rfl

end ChunkTable

theorem length_decimalChunks_le {k : ℕ} {a : UInt256} (h : a.toNat < (10 ^ 19) ^ k) :
    a.decimalChunks.length ≤ k := by
  fun_induction decimalChunks a generalizing k with
  | case1 => exact Nat.zero_le k
  | case2 a hz _ ih =>
    have hdiv := (divModWord_exact a (d := decimalChunk) (by decide)).1
    cases k with
    | zero => exact absurd (eq_zero_iff.2 (by simpa using h)) hz
    | succ k =>
      refine Nat.succ_le_succ (ih ?_)
      have hchunk : decimalChunk.toNat = 10 ^ 19 := rfl
      rw [hchunk] at hdiv
      rw [pow_succ] at h
      exact Nat.lt_of_mul_lt_mul_right (Nat.lt_of_le_of_lt (hdiv ▸ Nat.le_add_right _ _) h)

theorem length_decimalChunks_le_five (a : UInt256) : a.decimalChunks.length ≤ 5 :=
  length_decimalChunks_le (a.toNat_lt.trans (by norm_num))

def toDecimalByTable (a : UInt256) : Except TableFault String :=
  if a.isZero then .ok "0"
  else do
    let t ← ChunkTable.storeChunks a .empty
    return String.ofList (← t.digits)

theorem toDecimalByTable_eq (a : UInt256) : a.toDecimalByTable = .ok a.toDecimal := by
  rw [toDecimalByTable]
  split
  · rename_i hz
    rw [isZero_iff.1 hz, toDecimal, render, decimalDigits, decimalChunks, dif_pos rfl]
    rfl
  · rename_i hz
    have hfive := a.length_decimalChunks_le_five
    have hpos : 0 < a.decimalChunks.length := by
      rw [decimalChunks, dif_neg (mt isZero_iff.2 hz), List.length_cons]
      exact Nat.succ_pos _
    obtain ⟨t, hstore, hused, hchunks⟩ :=
      ChunkTable.exists_storeChunks a (t := .empty) ((Nat.zero_add _).trans_le hfive)
    replace hused : t.used = a.decimalChunks.length := hused.trans (Nat.zero_add _)
    replace hchunks : t.chunks = a.decimalChunks := hchunks
    rw [hstore]
    simp only [bind, Except.bind, ChunkTable.digits_eq (hused ▸ hpos) (hused ▸ hfive), hchunks]
    rfl

/-- Every division by the weight of a chunk has a result, and makes a number that is not zero
smaller. -/
theorem exists_divModWord?_lt {a : UInt256} (ha : a ≠ 0) :
    ∃ q r, a.divModWord? decimalChunk = some (q, r) ∧ q.toNat < a.toNat :=
  ⟨_, _, ChunkTable.divModWord?_decimalChunk a, toNat_fst_divModWord_lt ha (by decide)⟩

theorem head?_withCase_eq_zero_iff (letters : LetterCase) (n : ℕ) :
    (withCase letters (Nat.toDigits 16 n)).head? = some '0' ↔ n = 0 := by
  rw [← head?_toDigits_eq_zero_iff (by decide : 1 < 16) n]
  cases letters with
  | lower => rfl
  | upper =>
    have hall : ∀ p ∈ Radix.hexadecimal.digits, p.1.toUpper = '0' ↔ p.1 = '0' := by decide
    rw [withCase, List.head?_map]
    cases hhead : (Nat.toDigits 16 n).head? with
    | none => exact Iff.rfl
    | some c =>
      have hdigit := (Radix.hexadecimal.isNumeral_toDigits n).digit c (List.mem_of_mem_head? hhead)
      obtain ⟨v, hv⟩ := Option.isSome_iff_exists.1 hdigit
      rw [Option.map_some, Option.some_inj, Option.some_inj]
      exact hall _ (Radix.mem_digits_of_value? hv)

end UInt256

namespace Felt

open Numeral

/-- The hexadecimal numeral of an element is that of its bytes, two digits for each, without the
zeros in front. -/
theorem toDigits_eq_trimmed_bytes (a : Felt) : Nat.toDigits 16 a.toNat =
    trimmed (a.toBytesBE.flatMap fun b => padded 16 2 b.toNat) := by
  have hpieces : a.toBytesBE.flatMap (fun b => padded 16 2 b.toNat) =
      (a.toBytesBE.map UInt8.toUInt64).flatMap fun w => padded 16 2 w.toNat := by
    rw [List.flatMap_map]
    simp only [UInt8.toNat_toUInt64]
  have hne : a.toBytesBE.map UInt8.toUInt64 ≠ [] := fun h => by
    have hlen := congrArg List.length h
    rw [List.length_map, length_toBytesBE] at hlen
    exact absurd hlen (by decide)
  have hsmall : ∀ w ∈ a.toBytesBE.map UInt8.toUInt64, w.toNat < 16 ^ 2 := fun w hw => by
    obtain ⟨b, -, rfl⟩ := List.mem_map.1 hw
    rw [UInt8.toNat_toUInt64]
    exact b.toNat_lt
  have hvalue : UInt256.ofPieces (16 ^ 2) (a.toBytesBE.map UInt8.toUInt64) = a.toNat := by
    rw [UInt256.ofPieces_eq_ofDigits, ← List.map_reverse, List.map_map, toBytesBE_eq_reverse,
      List.reverse_reverse, ← littleEndian_toBytesLE]
    rfl
  rw [hpieces, UInt256.trimmed_flatMap_eq_toDigits (by decide) (by decide) hne hsmall, hvalue]

/-- A decimal rendering is the shortest numeral of the number. Its chunks are five at most, so a
table of five places holds them, and each of the divisions that make them leaves less. A hexadecimal
rendering is the shortest numeral in either case, behind the mark when there is one, and that of
an element is made of the digits of its bytes without the zeros in front. -/
theorem rendering_exact :
    (∀ a : UInt256,
      a.toDecimal.toList = Nat.toDigits 10 a.toNat ∧
      (a.toDecimal.toList.head? = some '0' ↔ a = 0) ∧
      a.toDecimalByTable = .ok a.toDecimal ∧
      a.decimalChunks.length ≤ 5 ∧
      (a ≠ 0 → ∃ q r, a.divModWord? UInt256.decimalChunk = some (q, r) ∧ q.toNat < a.toNat)) ∧
    (∀ (a : UInt256) (letters : LetterCase),
      (a.render (.hexadecimal letters false)).toList =
        withCase letters (Nat.toDigits 16 a.toNat) ∧
      (a.render (.hexadecimal letters true)).toList =
        '0' :: 'x' :: withCase letters (Nat.toDigits 16 a.toNat) ∧
      ((a.render (.hexadecimal letters false)).toList.head? = some '0' ↔ a = 0)) ∧
    ∀ a : Felt, a.toHex.toList =
      '0' :: 'x' :: trimmed (a.toBytesBE.flatMap fun b => padded 16 2 b.toNat) := by
  refine ⟨fun a => ⟨a.toList_toDecimal, ?_, a.toDecimalByTable_eq, a.length_decimalChunks_le_five,
    UInt256.exists_divModWord?_lt⟩, fun a letters => ⟨?_, ?_, ?_⟩, fun a => ?_⟩
  · rw [a.toList_toDecimal, head?_toDigits_eq_zero_iff (by decide), UInt256.eq_zero_iff]
  · exact a.toList_render_hexadecimal letters false
  · exact a.toList_render_hexadecimal letters true
  · rw [a.toList_render_hexadecimal letters false, UInt256.eq_zero_iff]
    exact UInt256.head?_withCase_eq_zero_iff letters a.toNat
  · rw [← toDigits_eq_trimmed_bytes]
    exact a.toUInt256.toList_render_hexadecimal .lower true

end Felt

end FieldSponge
