import FieldSponge.Felt.Json
import FieldSponge.Proofs.TextRoundTrips

/-! Field elements in JSON. An element is read from exactly two kinds of values, a string that is
the text of an element and an integer of 64 bits without a sign, and the texts and the integer of
one number are read as one element. Which numerals are such integers is said of their spelling. -/
namespace FieldSponge
namespace Radix

theorem isDigit_decimal_iff {c : Char} : decimal.IsDigit c ↔ c.isDigit = true := by
  rw [isDigit_iff, digit?]
  split
  · rename_i h
    exact ⟨fun _ => h, fun _ => ⟨_, rfl⟩⟩
  · rename_i h
    refine ⟨fun hd => ?_, fun hc => absurd hc h⟩
    obtain ⟨d, hd⟩ := hd
    exact absurd hd (Option.some_ne_none d).symm

theorem value?_decimal {c : Char} (h : decimal.IsDigit c) :
    decimal.value? c = some (c.toNat - '0'.toNat) := by
  have hall : ∀ p ∈ decimal.digits, p.2 = p.1.toNat - '0'.toNat := by decide
  obtain ⟨v, hv⟩ := Option.isSome_iff_exists.1 h
  exact hv.trans (congrArg some (hall (c, v) (mem_digits_of_value? hv)))

theorem ofDigitChars_eq_integer {digits : List Char} (h : ∀ c ∈ digits, decimal.IsDigit c) :
    Nat.ofDigitChars 10 digits 0 = decimal.integer digits := by
  induction digits with
  | nil => rfl
  | cons c digits ih =>
    have hc := value?_decimal (h c List.mem_cons_self)
    rw [Nat.ofDigitChars_cons, Nat.mul_zero, Nat.zero_add, Nat.ofDigitChars_eq_ofDigitChars_zero,
      ih fun d hd => h d (List.mem_cons_of_mem c hd), ← List.singleton_append, integer_append,
      integer_singleton hc, Nat.mul_comm]
    rfl

end Radix

namespace Json

/-- The spelling of a number: digits, behind a minus sign or not, with a fraction or without and
with an exponent or without. Every numeral of JSON is one. -/
structure Spelling where
  parts : Literal
  /-- The letter in front of the exponent. -/
  mark : Char
  /-- Whether an exponent that is not negative has a sign. -/
  plus : Bool
  mark_eq : mark = 'e' ∨ mark = 'E'
  whole_ne_nil : parts.whole ≠ []
  whole : ∀ c ∈ parts.whole, Radix.decimal.IsDigit c
  fraction : ∀ digits ∈ parts.fraction, ∀ c ∈ digits, Radix.decimal.IsDigit c
  exponent : ∀ e ∈ parts.exponent, ∀ c ∈ e.2, Radix.decimal.IsDigit c

namespace Spelling

def signText (x : Spelling) : List Char := if x.parts.negative then ['-'] else []

def fractionText (x : Spelling) : List Char := x.parts.fraction.elim [] ('.' :: ·)

def exponentText (x : Spelling) : List Char :=
  x.parts.exponent.elim [] fun (negative, digits) =>
    x.mark :: ((if negative then ['-'] else if x.plus then ['+'] else []) ++ digits)

def mantissaText (x : Spelling) : List Char := x.parts.whole ++ x.fractionText

def bodyText (x : Spelling) : List Char := x.mantissaText ++ x.exponentText

def text (x : Spelling) : String := String.ofList (x.signText ++ x.bodyText)

def IsPlain (x : Spelling) : Prop :=
  x.parts.negative = false ∧ x.parts.fraction = none ∧ x.parts.exponent = none

end Spelling

namespace Literal

/-- The letters that stand in front of an exponent. -/
def isMark (c : Char) : Bool := c == 'e' || c == 'E'

theorem not_isMark_of_isDigit {c : Char} (h : Radix.decimal.IsDigit c) : (!isMark c) = true := by
  have he : c ≠ 'e' := fun hc => absurd (hc ▸ h) (by decide)
  have hE : c ≠ 'E' := fun hc => absurd (hc ▸ h) (by decide)
  rw [isMark, beq_eq_false_iff_ne.2 he, beq_eq_false_iff_ne.2 hE]
  rfl

theorem readExponent_of_isDigit {digits : List Char} (h : ∀ c ∈ digits, Radix.decimal.IsDigit c)
    (mark : Char) : readExponent (mark :: digits) = some (false, digits) := by
  cases digits with
  | nil => rfl
  | cons d digits =>
    have hd := h d List.mem_cons_self
    rw [readExponent]
    · rintro rest hrest
      cases hrest
      exact absurd hd (by decide)
    · rintro rest hrest
      cases hrest
      exact absurd hd (by decide)

def fractionOf : List Char → Option (List Char)
  | '.' :: digits => some digits
  | _ => none

def ofBody (negative : Bool) (body : List Char) : Literal where
  negative := negative
  whole := (body.takeWhile (!isMark ·)).takeWhile Char.isDigit
  fraction := fractionOf ((body.takeWhile (!isMark ·)).dropWhile Char.isDigit)
  exponent := readExponent (body.dropWhile (!isMark ·))

theorem read_sign {body : List Char} (h : ∀ rest, body ≠ '-' :: rest) (negative : Bool) :
    read (String.ofList ((if negative then ['-'] else []) ++ body)) = ofBody negative body := by
  rw [read, String.toList_ofList]
  split
  rename_i sign rest hsign
  obtain ⟨rfl, rfl⟩ : sign = negative ∧ rest = body := by
    cases negative with
    | false =>
      rw [if_neg Bool.false_ne_true, List.nil_append] at hsign
      split at hsign
      · exact absurd rfl (h _)
      · cases hsign
        exact ⟨rfl, rfl⟩
    | true =>
      cases hsign
      exact ⟨rfl, rfl⟩
  simp only [ofBody, isMark]
  generalize List.dropWhile Char.isDigit _ = tail
  split
  · rfl
  · rw [fractionOf]
    assumption

end Literal

namespace Spelling

open Literal

theorem bodyText_ne (x : Spelling) (rest : List Char) : x.bodyText ≠ '-' :: rest := by
  obtain ⟨d, digits, hd⟩ := List.exists_cons_of_ne_nil x.whole_ne_nil
  intro h
  rw [bodyText, mantissaText, hd, List.cons_append, List.cons_append] at h
  have hdigit := x.whole d (hd ▸ List.mem_cons_self)
  rw [(List.cons.inj h).1] at hdigit
  exact absurd hdigit (by decide)

theorem not_isMark_mantissaText (x : Spelling) : ∀ c ∈ x.mantissaText, (!isMark c) = true := by
  intro c hc
  rcases List.mem_append.1 hc with hwhole | hfraction
  · exact not_isMark_of_isDigit (x.whole c hwhole)
  · rw [fractionText] at hfraction
    cases hparts : x.parts.fraction with
    | none =>
      rw [hparts, Option.elim_none] at hfraction
      exact absurd hfraction List.not_mem_nil
    | some digits =>
      rw [hparts, Option.elim_some] at hfraction
      rcases List.mem_cons.1 hfraction with rfl | hmem
      · rfl
      · exact not_isMark_of_isDigit (x.fraction digits hparts c hmem)

theorem exponentText_split (x : Spelling) :
    x.exponentText.takeWhile (!isMark ·) = [] ∧
      x.exponentText.dropWhile (!isMark ·) = x.exponentText := by
  rw [exponentText]
  cases x.parts.exponent with
  | none => exact ⟨rfl, rfl⟩
  | some e =>
    have hmark : ¬ (!isMark x.mark) = true := by
      rcases x.mark_eq with h | h <;> rw [h] <;> decide
    exact ⟨List.takeWhile_cons_of_neg hmark, List.dropWhile_cons_of_neg hmark⟩

theorem bodyText_split (x : Spelling) :
    x.bodyText.takeWhile (!isMark ·) = x.mantissaText ∧
      x.bodyText.dropWhile (!isMark ·) = x.exponentText := by
  obtain ⟨htake, hdrop⟩ := x.exponentText_split
  rw [bodyText, List.takeWhile_append_of_pos x.not_isMark_mantissaText,
    List.dropWhile_append_of_pos x.not_isMark_mantissaText, htake, hdrop, List.append_nil]
  exact ⟨rfl, rfl⟩

theorem mantissaText_split (x : Spelling) :
    x.mantissaText.takeWhile Char.isDigit = x.parts.whole ∧
      x.mantissaText.dropWhile Char.isDigit = x.fractionText := by
  have hwhole : ∀ c ∈ x.parts.whole, c.isDigit = true := fun c hc =>
    Radix.isDigit_decimal_iff.1 (x.whole c hc)
  rw [mantissaText, List.takeWhile_append_of_pos hwhole, List.dropWhile_append_of_pos hwhole,
    fractionText]
  cases x.parts.fraction with
  | none => exact ⟨List.append_nil _, rfl⟩
  | some digits => exact ⟨List.append_nil _, rfl⟩

theorem fractionOf_fractionText (x : Spelling) : fractionOf x.fractionText = x.parts.fraction := by
  rw [fractionText]
  cases x.parts.fraction <;> rfl

theorem readExponent_exponentText (x : Spelling) :
    readExponent x.exponentText = x.parts.exponent := by
  rw [exponentText]
  cases hparts : x.parts.exponent with
  | none => rfl
  | some e =>
    obtain ⟨negative, digits⟩ := e
    cases negative with
    | true => rfl
    | false =>
      cases x.plus with
      | true => rfl
      | false => exact readExponent_of_isDigit (x.exponent (false, digits) hparts) x.mark

/-- The parts of a number are read from its spelling. -/
theorem read_text (x : Spelling) : read x.text = x.parts := by
  rw [text, signText, read_sign x.bodyText_ne, ofBody, x.bodyText_split.1, x.bodyText_split.2,
    x.mantissaText_split.1, x.mantissaText_split.2, x.readExponent_exponentText,
    x.fractionOf_fractionText]

/-- The integers of 64 bits without a sign are the numerals of digits alone that are small
enough. -/
theorem ofText_eq_natural_iff (x : Spelling) (n : UInt64) : Number.ofText x.text = .natural n ↔
    x.IsPlain ∧ Radix.decimal.integer x.parts.whole = n.toNat := by
  rw [Number.ofText, x.read_text]
  simp only [Radix.ofDigitChars_eq_integer x.whole, IsPlain]
  cases x.parts.fraction with
  | some digits => simp
  | none =>
    cases x.parts.exponent with
    | some e => simp
    | none =>
      cases x.parts.negative with
      | true =>
        simp only
        split <;> simp
      | false =>
        simp only [true_and]
        split
        · rename_i hlt
          rw [Number.natural.injEq, ← UInt64.toNat_inj, UInt64.toNat_ofNat_of_lt' hlt]
        · rename_i hlt
          refine ⟨nofun, fun h => absurd n.toNat_lt ?_⟩
          rwa [← h]

def plain (digits : List Char) (hne : digits ≠ [])
    (h : ∀ c ∈ digits, Radix.decimal.IsDigit c) : Spelling where
  parts := ⟨false, digits, none, none⟩
  mark := 'e'
  plus := false
  mark_eq := .inl rfl
  whole_ne_nil := hne
  whole := h
  fraction := nofun
  exponent := nofun

theorem text_plain (digits : List Char) (hne : digits ≠ [])
    (h : ∀ c ∈ digits, Radix.decimal.IsDigit c) :
    (plain digits hne h).text = String.ofList digits := by
  simp [text, signText, bodyText, mantissaText, fractionText, exponentText, plain]

end Spelling
end Json

namespace Felt

theorem ofWord_eq_iff {a : Felt} {n : UInt64} : a = ofWord n ↔ a.toNat = n.toNat := by
  rw [← toNat_inj, toNat_ofWord]

theorem ofZMod_natCast_word (n : UInt64) : ofZMod (n.toNat : ZMod prime) = ofWord n := by
  rw [← toZMod_inj, toZMod_ofZMod, toZMod_ofWord]

/-- What is answered for a JSON value: the element of a text or of an integer of 64 bits, or what
is wrong with the text, or that the value is of neither kind. -/
inductive Decoding : Json → Except JsonError Felt → Prop where
  | text {text : String} {a : Felt} (read : parse text = .ok a) : Decoding (.string text) (.ok a)
  | integer {n : UInt64} {a : Felt} (value : a.toNat = n.toNat) :
      Decoding (.number (.natural n)) (.ok a)
  | malformed {text : String} {cause : Error} (read : parse text = .error cause) :
      Decoding (.string text) (.error (.malformed cause))
  | unexpected {v : Json} (notText : ∀ text, v ≠ .string text)
      (notInteger : ∀ n, v ≠ .number (.natural n)) : Decoding v (.error (.unexpected v))

theorem decoding_ofJson (v : Json) : Decoding v (ofJson v) := by
  cases v with
  | string text =>
    rw [ofJson]
    cases hread : parse text with
    | ok a => exact .text hread
    | error cause => exact .malformed hread
  | number n =>
    cases n with
    | natural n => exact .integer (toNat_ofWord n)
    | negative | float => exact .unexpected nofun nofun
  | null | boolean | sequence | object => exact .unexpected nofun nofun

theorem ofJson_of_ne {v : Json} (htext : ∀ text, v ≠ .string text)
    (hinteger : ∀ n, v ≠ .number (.natural n)) : ofJson v = .error (.unexpected v) := by
  rw [ofJson]
  · exact htext
  · exact hinteger

theorem ofJson_eq_iff (v : Json) (result : Except JsonError Felt) :
    ofJson v = result ↔ Decoding v result := by
  constructor
  · rintro rfl
    exact decoding_ofJson v
  · intro h
    cases h with
    | text hread => rw [ofJson, hread, Except.mapError]
    | integer hvalue => rw [ofJson, ofWord_eq_iff.2 hvalue]
    | malformed hread => rw [ofJson, hread, Except.mapError]
    | unexpected htext hinteger => exact ofJson_of_ne htext hinteger

theorem ofJson_ofText_eq_ok_iff (x : Json.Spelling) (a : Felt) :
    ofJson (.number (.ofText x.text)) = .ok a ↔
      x.IsPlain ∧ Radix.decimal.integer x.parts.whole < 2 ^ 64 ∧
        a.toNat = Radix.decimal.integer x.parts.whole := by
  rw [ofJson_eq_iff]
  constructor
  · intro h
    generalize hv : Json.number (.ofText x.text) = v at h
    cases h with
    | text => cases hv
    | integer hvalue =>
      obtain ⟨hplain, hn⟩ := (x.ofText_eq_natural_iff _).1 (Json.number.inj hv)
      rw [hn]
      exact ⟨hplain, UInt64.toNat_lt _, hvalue⟩
  · rintro ⟨hplain, hlt, hvalue⟩
    have hn : (UInt64.ofNat (Radix.decimal.integer x.parts.whole)).toNat =
        Radix.decimal.integer x.parts.whole := UInt64.toNat_ofNat_of_lt' hlt
    rw [(x.ofText_eq_natural_iff _).2 ⟨hplain, hn.symm⟩]
    exact .integer (hvalue.trans hn.symm)

def decimalText (n : UInt64) : String := String.ofList (Nat.toDigits 10 n.toNat)

def hexText (letters : LetterCase) (n : UInt64) : String :=
  String.ofList (Numeral.hexMark ++ Numeral.withCase letters (Nat.toDigits 16 n.toNat))

theorem parse_decimalText (n : UInt64) : parse (decimalText n) = .ok (ofWord n) := by
  refine (parse_of_isNumeral ?_).trans (congrArg _ (ofZMod_natCast_word n))
  rw [decimalText, String.toList_ofList]
  exact Radix.decimal.isNumeral_toDigits n.toNat

theorem parse_hexText (letters : LetterCase) (n : UInt64) :
    parse (hexText letters n) = .ok (ofWord n) :=
  (parse_of_isNumeral_marked String.toList_ofList
    ((Radix.hexadecimal.isNumeral_toDigits n.toNat).withCase letters)).trans
    (congrArg _ (ofZMod_natCast_word n))

theorem ofText_decimalText (n : UInt64) : Json.Number.ofText (decimalText n) = .natural n := by
  have h := Radix.decimal.isNumeral_toDigits n.toNat
  have hplain := ((Json.Spelling.plain _ h.nonempty h.digit).ofText_eq_natural_iff n).2
    ⟨⟨rfl, rfl, rfl⟩, h.integer⟩
  rwa [Json.Spelling.text_plain] at hplain

/-- An element is read from the texts of elements and from the integers of 64 bits without a sign,
and any other value is refused. Of the numerals, those integers are the digits alone that denote a
number below `2 ^ 64`. What an element is written as is read back as it, and an integer is read as
one element from its numeral and from the strings of its decimal and of its hexadecimal digits. -/
theorem json_roundTrip :
    (∀ (v : Json) (result : Except JsonError Felt), ofJson v = result ↔ Decoding v result) ∧
    (∀ (x : Json.Spelling) (a : Felt), ofJson (.number (.ofText x.text)) = .ok a ↔
      x.IsPlain ∧ Radix.decimal.integer x.parts.whole < 2 ^ 64 ∧
        a.toNat = Radix.decimal.integer x.parts.whole) ∧
    (∀ a : Felt, ofJson a.toJson = .ok a) ∧
    ∀ n : UInt64, ofJson (.number (.natural n)) = .ok (ofWord n) ∧
      ofJson (.number (.ofText (decimalText n))) = .ok (ofWord n) ∧
      ofJson (.string (decimalText n)) = .ok (ofWord n) ∧
      ∀ letters, ofJson (.string (hexText letters n)) = .ok (ofWord n) := by
  have hstring : ∀ {text : String} {a : Felt}, parse text = .ok a → ofJson (.string text) = .ok a :=
    fun h => (ofJson_eq_iff _ _).2 (.text h)
  refine ⟨ofJson_eq_iff, ofJson_ofText_eq_ok_iff, fun a => hstring (parse_render_marked .lower a),
    fun n => ⟨rfl, ?_, hstring (parse_decimalText n),
      fun letters => hstring (parse_hexText letters n)⟩⟩
  rw [ofText_decimalText]
  rfl

end Felt

end FieldSponge
