import FieldSponge.Proofs.Numerals
import FieldSponge.Proofs.Primality
import FieldSponge.Proofs.RenderedNumerals

/-! Field elements through text. Every text that an element is written as is read back as that
element, so different elements are written differently. -/
namespace FieldSponge
namespace Radix

/-- Digits, one of them or more, that denote `n`. -/
structure IsNumeral (radix : Radix) (n : ℕ) (text : List Char) : Prop where
  nonempty : text ≠ []
  digit : ∀ c ∈ text, radix.IsDigit c
  integer : radix.integer text = n

theorem one_lt_base (radix : Radix) : 1 < radix.base.toNat := by
  cases radix <;> decide

theorem value?_digitChar {radix : Radix} {v : ℕ} (h : v < radix.base.toNat) :
    radix.value? v.digitChar = some v := by
  cases radix with
  | decimal => exact (by decide : ∀ v < 10, decimal.value? v.digitChar = some v) v h
  | hexadecimal => exact (by decide : ∀ v < 16, hexadecimal.value? v.digitChar = some v) v h

theorem isNumeral_digitChar {radix : Radix} {v : ℕ} (h : v < radix.base.toNat) :
    radix.IsNumeral v [v.digitChar] where
  nonempty := List.cons_ne_nil _ _
  digit c hc := by rw [List.mem_singleton.1 hc, IsDigit, value?_digitChar h, Option.isSome_some]
  integer := integer_singleton (value?_digitChar h)

theorem IsNumeral.append {radix : Radix} {n m : ℕ} {xs ys : List Char}
    (hx : radix.IsNumeral n xs) (hy : radix.IsNumeral m ys) :
    radix.IsNumeral (n * radix.base.toNat ^ ys.length + m) (xs ++ ys) where
  nonempty := List.append_ne_nil_of_left_ne_nil hx.nonempty ys
  digit c hc := (List.mem_append.1 hc).elim (hx.digit c) (hy.digit c)
  integer := by rw [integer_append, hx.integer, hy.integer]

theorem isNumeral_toDigits (radix : Radix) (n : ℕ) :
    radix.IsNumeral n (Nat.toDigits radix.base.toNat n) := by
  induction n using Nat.strongRecOn with
  | _ n ih =>
    rw [Nat.toDigits_eq_if radix.one_lt_base]
    split
    · rename_i h
      exact isNumeral_digitChar h
    · rename_i h
      have hlast := isNumeral_digitChar (Nat.mod_lt n (Nat.lt_of_succ_lt radix.one_lt_base))
      have hpos : 0 < n := Nat.pos_of_ne_zero fun hn => h (hn ▸ Nat.lt_of_succ_lt radix.one_lt_base)
      have happend := (ih _ (Nat.div_lt_self hpos radix.one_lt_base)).append hlast
      rwa [List.length_singleton, pow_one, Nat.div_add_mod'] at happend

theorem integer_replicate_zero (radix : Radix) (k : ℕ) :
    radix.integer (List.replicate k '0') = 0 := by
  induction k with
  | zero => rfl
  | succ k ih =>
    have hzero : radix.value? '0' = some 0 := by cases radix <;> rfl
    rw [List.replicate_succ', integer_append, ih, integer_singleton hzero, Nat.zero_mul]

/-- Zeros in front leave a numeral one of the same number. -/
theorem isNumeral_padded (radix : Radix) (width n : ℕ) :
    radix.IsNumeral n (Numeral.padded radix.base.toNat width n) := by
  have h := radix.isNumeral_toDigits n
  refine ⟨List.append_ne_nil_of_right_ne_nil _ h.nonempty, fun c hc => ?_, ?_⟩
  · rcases List.mem_append.1 hc with hzero | hdigit
    · rw [List.eq_of_mem_replicate hzero]
      cases radix <;> decide
    · exact h.digit c hdigit
  · rw [Numeral.padded, List.leftpad, integer_append, integer_replicate_zero, Nat.zero_mul,
      Nat.zero_add, h.integer]

theorem value?_toUpper {c : Char} (h : hexadecimal.IsDigit c) :
    hexadecimal.value? c.toUpper = hexadecimal.value? c := by
  have hall : ∀ p ∈ hexadecimal.digits,
      hexadecimal.value? p.1.toUpper = hexadecimal.value? p.1 := by decide
  obtain ⟨v, hv⟩ := Option.isSome_iff_exists.1 h
  exact hall (c, v) (mem_digits_of_value? hv)

/-- Digits have the same value in both cases. -/
theorem IsNumeral.withCase {n : ℕ} {text : List Char} (h : hexadecimal.IsNumeral n text)
    (letters : LetterCase) : hexadecimal.IsNumeral n (Numeral.withCase letters text) := by
  cases letters with
  | lower => exact h
  | upper =>
    refine ⟨fun hnil => h.nonempty (List.map_eq_nil_iff.1 hnil), fun c hc => ?_, ?_⟩
    · obtain ⟨d, hd, rfl⟩ := List.mem_map.1 hc
      rw [IsDigit, value?_toUpper (h.digit d hd)]
      exact h.digit d hd
    · rw [← h.integer, Numeral.withCase, Radix.integer, ← List.map_reverse, List.map_map]
      refine congrArg _ (List.map_congr_left fun c hc => ?_)
      exact congrArg (·.getD 0) (value?_toUpper (h.digit c (List.mem_reverse.1 hc)))

end Radix

namespace Felt

theorem ofZMod_toNat (a : Felt) : ofZMod a.toNat = a := ofZMod_toZMod a

theorem readNumeral_of_isNumeral {radix : Radix} {n : ℕ} {text : List Char}
    (h : radix.IsNumeral n text) (index : ℕ) :
    readNumeral radix index text = .ok (ofZMod n) := by
  rw [readNumeral_of_isDigit h.nonempty h.digit, h.integer]

theorem not_isPrefix_of_isDigit {radix : Radix} {front text : List Char} {c : Char}
    (h : ∀ d ∈ text, radix.IsDigit d) (hmem : c ∈ front) (hc : ¬ radix.IsDigit c) :
    ¬ front <+: text := fun hp => hc (h c (hp.subset hmem))

theorem leadingMark_of_isDigit {text : List Char} (h : ∀ d ∈ text, Radix.hexadecimal.IsDigit d) :
    leadingMark text = [] := by
  have hx : ¬ ['0', 'x'] <+: text := not_isPrefix_of_isDigit h (c := 'x') (by decide) (by decide)
  have hX : ¬ ['0', 'X'] <+: text := not_isPrefix_of_isDigit h (c := 'X') (by decide) (by decide)
  rw [leadingMark, if_neg hx, if_neg hX]

theorem leadingSign_of_isDigit {text : List Char} (h : ∀ d ∈ text, Radix.decimal.IsDigit d) :
    leadingSign text = [] :=
  if_neg (not_isPrefix_of_isDigit h List.mem_cons_self (by decide))

theorem isMarkedHex_of_isDigit {text : List Char} (h : ∀ d ∈ text, Radix.decimal.IsDigit d) :
    ¬ isMarkedHex text = true := by
  have hx : ¬ ['0', 'x'] <+: text := not_isPrefix_of_isDigit h (c := 'x') (by decide) (by decide)
  have hX : ¬ ['0', 'X'] <+: text := not_isPrefix_of_isDigit h (c := 'X') (by decide) (by decide)
  exact fun hmarked => (isMarkedHex_iff.1 hmarked).elim hx hX

theorem readHex_of_isNumeral {n : ℕ} {text : List Char} (h : Radix.hexadecimal.IsNumeral n text) :
    readHex text = .ok (ofZMod n) := by
  obtain ⟨digits, htext, hread⟩ := readHex_eq text
  rw [leadingMark_of_isDigit h.digit, List.nil_append] at htext
  rw [hread, ← htext, readNumeral_of_isNumeral h]

theorem readDecimal_of_isNumeral {n : ℕ} {text : List Char} (h : Radix.decimal.IsNumeral n text) :
    readDecimal text = .ok (ofZMod n) := by
  obtain ⟨digits, htext, hread⟩ := readDecimal_eq text
  rw [leadingSign_of_isDigit h.digit, List.nil_append] at htext
  rw [hread, leadingSign_of_isDigit h.digit, if_pos rfl, Except.map_id, id, ← htext,
    readNumeral_of_isNumeral h]

theorem parse_of_isNumeral {n : ℕ} {text : String} (h : Radix.decimal.IsNumeral n text.toList) :
    parse text = .ok (ofZMod n) := by
  rw [parse, if_neg (isMarkedHex_of_isDigit h.digit), ofDecimal, readDecimal_of_isNumeral h]

theorem parse_of_isNumeral_marked {n : ℕ} {text : String} {digits : List Char}
    (htext : text.toList = Numeral.hexMark ++ digits) (h : Radix.hexadecimal.IsNumeral n digits) :
    parse text = .ok (ofZMod n) := by
  rw [parse, if_pos (by rw [htext]; rfl), ofHex, htext]
  exact readNumeral_of_isNumeral h 2

theorem toList_toSigned (a : Felt) : a.toSigned.toList =
    if half < a.toUInt256 then '-' :: Nat.toDigits 10 (prime - a.toNat)
    else Nat.toDigits 10 a.toNat := by
  have hle : a.toUInt256 ≤ Montgomery.modulus := Nat.le_of_lt a.toNat_lt
  rw [toSigned]
  split
  · rw [String.toList_append, UInt256.toList_toDecimal, UInt256.toNat_fst_subBorrow_of_le hle]
    rfl
  · exact UInt256.toList_toDecimal a.toUInt256

theorem ofHex_render (letters : LetterCase) (marked : Bool) (a : Felt) :
    ofHex (a.render (.hexadecimal letters marked)) = .ok a := by
  have h := (Radix.hexadecimal.isNumeral_toDigits a.toNat).withCase letters
  rw [ofHex, render, UInt256.toList_render_hexadecimal]
  cases marked with
  | false => exact (readHex_of_isNumeral h).trans (congrArg _ a.ofZMod_toNat)
  | true => exact (readNumeral_of_isNumeral h 2).trans (congrArg _ a.ofZMod_toNat)

theorem parse_render_marked (letters : LetterCase) (a : Felt) :
    parse (a.render (.hexadecimal letters true)) = .ok a := by
  rw [parse, if_pos (by rw [render, UInt256.toList_render_hexadecimal]; rfl), ofHex_render]

theorem ofDecimal_toDecimal (a : Felt) : ofDecimal a.toDecimal = .ok a := by
  rw [ofDecimal, toDecimal, UInt256.toList_toDecimal]
  exact (readDecimal_of_isNumeral (Radix.decimal.isNumeral_toDigits a.toNat)).trans
    (congrArg _ a.ofZMod_toNat)

theorem parse_toDecimal (a : Felt) : parse a.toDecimal = .ok a := by
  refine (parse_of_isNumeral ?_).trans (congrArg _ a.ofZMod_toNat)
  rw [toDecimal, UInt256.toList_toDecimal]
  exact Radix.decimal.isNumeral_toDigits a.toNat

theorem neg_ofZMod_prime_sub (a : Felt) : -ofZMod ((prime - a.toNat : ℕ) : ZMod prime) = a := by
  refine toZMod_inj.1 ?_
  rw [toZMod_neg, toZMod_ofZMod, Nat.cast_sub (Nat.le_of_lt a.toNat_lt), ZMod.natCast_self,
    zero_sub, neg_neg, toZMod]

theorem ofDecimal_toSigned (a : Felt) : ofDecimal a.toSigned = .ok a := by
  rw [ofDecimal, toList_toSigned]
  split
  · have hread : readNumeral .decimal 1 (Nat.toDigits 10 (prime - a.toNat)) =
        .ok (ofZMod ((prime - a.toNat : ℕ) : ZMod prime)) :=
      readNumeral_of_isNumeral (Radix.decimal.isNumeral_toDigits _) 1
    rw [readDecimal, hread, Except.map, neg_ofZMod_prime_sub]
  · exact (readDecimal_of_isNumeral (Radix.decimal.isNumeral_toDigits a.toNat)).trans
      (congrArg _ a.ofZMod_toNat)

theorem parse_toSigned (a : Felt) : parse a.toSigned = .ok a := by
  rw [parse, if_neg, ofDecimal_toSigned]
  rw [toList_toSigned]
  split
  · exact Bool.false_ne_true
  · exact isMarkedHex_of_isDigit (Radix.decimal.isNumeral_toDigits a.toNat).digit

/-- Every text of an element is read back as it, and none is that of another element. -/
theorem text_roundTrip :
    (∀ a : Felt,
      parse a.toHex = .ok a ∧ parse a.toDecimal = .ok a ∧ parse a.toSigned = .ok a ∧
      parse (a.render .decimal) = .ok a ∧
      (∀ letters, parse (a.render (.hexadecimal letters true)) = .ok a ∧
        ofHex (a.render (.hexadecimal letters false)) = .ok a) ∧
      ofDecimal a.toDecimal = .ok a ∧ ofDecimal a.toSigned = .ok a) ∧
    Function.Injective toHex ∧ Function.Injective toDecimal ∧ Function.Injective toSigned ∧
    ∀ form, Function.Injective (render form) := by
  have hinj : ∀ {write : Felt → String} {read : String → Except Error Felt},
      (∀ a, read (write a) = .ok a) → Function.Injective write := fun h a b hab =>
    Except.ok.inj ((h a).symm.trans ((congrArg _ hab).trans (h b)))
  refine ⟨fun a => ⟨?_, ?_, ?_, ?_, ?_, ?_, ?_⟩, ?_, ?_, ?_, ?_⟩
  · exact parse_render_marked .lower a
  · exact parse_toDecimal a
  · exact parse_toSigned a
  · exact parse_toDecimal a
  · exact fun letters => ⟨parse_render_marked letters a, ofHex_render letters false a⟩
  · exact ofDecimal_toDecimal a
  · exact ofDecimal_toSigned a
  · exact hinj (parse_render_marked .lower)
  · exact hinj parse_toDecimal
  · exact hinj parse_toSigned
  · intro form
    cases form with
    | decimal => exact hinj parse_toDecimal
    | hexadecimal letters marked => exact hinj (ofHex_render letters marked)

end Felt

end FieldSponge
