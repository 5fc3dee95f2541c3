import FieldSponge.Felt.Convert
import FieldSponge.Proofs.Residues
import Mathlib.Data.Nat.Digits.Lemmas

/-! What the readers of numerals accept. A numeral is one digit or more behind an optional mark or
sign, and its value is the integer that the digits denote, taken modulo the prime. Any other text is
refused with its first character that is no digit and the bytes in front of it. -/
namespace FieldSponge
namespace Radix

def digits : Radix → List (Char × ℕ)
  | decimal => ['0', '1', '2', '3', '4', '5', '6', '7', '8', '9'].zipIdx
  | hexadecimal =>
    ['0', '1', '2', '3', '4', '5', '6', '7', '8', '9', 'a', 'b', 'c', 'd', 'e', 'f'].zipIdx
      ++ ['A', 'B', 'C', 'D', 'E', 'F'].zipIdx 10

def value? (radix : Radix) (c : Char) : Option ℕ := radix.digits.lookup c

def IsDigit (radix : Radix) (c : Char) : Prop := (radix.value? c).isSome = true

instance (radix : Radix) (c : Char) : Decidable (radix.IsDigit c) :=
  inferInstanceAs (Decidable (_ = true))

/-- The integer that digits denote, the first of them with the greatest weight. -/
def integer (radix : Radix) (text : List Char) : ℕ :=
  Nat.ofDigits radix.base.toNat (text.reverse.map fun c => (radix.value? c).getD 0)

theorem integer_append (radix : Radix) (xs ys : List Char) : radix.integer (xs ++ ys) =
    radix.integer xs * radix.base.toNat ^ ys.length + radix.integer ys := by
  rw [integer, List.reverse_append, List.map_append, Nat.ofDigits_append, List.length_map,
    List.length_reverse, Nat.add_comm, Nat.mul_comm]
  rfl

theorem integer_singleton {radix : Radix} {c : Char} {v : ℕ} (h : radix.value? c = some v) :
    radix.integer [c] = v := by
  simp [integer, h]

theorem mem_digits_of_value? {radix : Radix} {c : Char} {v : ℕ} (h : radix.value? c = some v) :
    (c, v) ∈ radix.digits := by
  obtain ⟨front, rest, hsplit, -⟩ := List.lookup_eq_some_iff.1 h
  exact hsplit ▸ List.mem_append_right front List.mem_cons_self

theorem toNat_digit?_ofNat (radix : Radix) {n : ℕ} (h : n < 128) :
    (radix.digit? (Char.ofNat n)).map UInt64.toNat = radix.value? (Char.ofNat n) := by
  revert n
  cases radix <;> decide

theorem toNat_lt_of_mem_digits {radix : Radix} {c : Char} {v : ℕ} (h : (c, v) ∈ radix.digits) :
    c.toNat < 128 := by
  have hall : ∀ p ∈ radix.digits, p.1.toNat < 128 := by cases radix <;> decide
  exact hall (c, v) h

theorem toNat_digit? (radix : Radix) (c : Char) :
    (radix.digit? c).map UInt64.toNat = radix.value? c := by
  by_cases h : c.toNat < 128
  · rw [← Char.ofNat_toNat c]
    exact radix.toNat_digit?_ofNat h
  · have hvalue : radix.value? c = none := by
      refine List.lookup_eq_none_iff.2 fun p hp => bne_iff_ne.2 ?_
      rintro rfl
      exact h (toNat_lt_of_mem_digits hp)
    rw [hvalue, Option.map_eq_none_iff]
    have hnot : ∀ d : Char, d.toNat < 128 → ¬ c ≤ d := fun d hd hle =>
      h (Nat.lt_of_le_of_lt (UInt32.le_iff_toNat_le.1 hle) hd)
    have hdigit : ¬ c.isDigit = true := by
      rw [Char.isDigit, Bool.and_eq_true, decide_eq_true_iff, decide_eq_true_iff]
      exact fun hc => hnot '9' (by decide) hc.2
    cases radix with
    | decimal => rw [digit?, if_neg hdigit]
    | hexadecimal =>
      rw [digit?, if_neg hdigit, if_neg fun hc => hnot 'f' (by decide) hc.2,
        if_neg fun hc => hnot 'F' (by decide) hc.2]

theorem value?_of_digit? {radix : Radix} {c : Char} {d : UInt64} (h : radix.digit? c = some d) :
    radix.value? c = some d.toNat := by
  rw [← toNat_digit?, h, Option.map_some]

theorem isDigit_iff {radix : Radix} {c : Char} :
    radix.IsDigit c ↔ ∃ d, radix.digit? c = some d := by
  rw [IsDigit, ← toNat_digit?, Option.isSome_map, Option.isSome_iff_exists]

end Radix

namespace Felt

/-- Digits in front are read past: they count towards the index and the value. -/
theorem readDigits_append {radix : Radix} {good : List Char} (h : ∀ c ∈ good, radix.IsDigit c)
    (index : ℕ) (value : Felt) (rest : List Char) :
    readDigits radix index value (good ++ rest) =
      readDigits radix (index + (String.ofList good).utf8ByteSize)
        (ofZMod (value.toZMod * radix.base.toNat ^ good.length + radix.integer good)) rest := by
  induction good generalizing index value with
  | nil => simp [Radix.integer]
  | cons c good ih =>
    obtain ⟨d, hd⟩ := Radix.isDigit_iff.1 (h c List.mem_cons_self)
    have hsize : (String.ofList (c :: good)).utf8ByteSize =
        c.utf8Size + (String.ofList good).utf8ByteSize := by
      rw [String.ofList_cons, String.utf8ByteSize_append, String.utf8ByteSize_singleton]
    have hint : radix.integer (c :: good) =
        d.toNat * radix.base.toNat ^ good.length + radix.integer good := by
      rw [← List.singleton_append, Radix.integer_append,
        Radix.integer_singleton (Radix.value?_of_digit? hd)]
    rw [List.cons_append, readDigits, hd]
    simp only
    rw [ih fun c hc => h c (List.mem_cons_of_mem _ hc), hsize, hint, Nat.add_assoc]
    congr 2
    rw [toZMod_add, toZMod_mul, toZMod_ofWord, toZMod_ofWord, List.length_cons]
    push_cast
    ring

theorem readNumeral_of_isDigit {radix : Radix} {digits : List Char} (hne : digits ≠ [])
    (h : ∀ c ∈ digits, radix.IsDigit c) (index : ℕ) :
    readNumeral radix index digits = .ok (ofZMod (radix.integer digits)) := by
  have hread := readDigits_append h index 0 []
  rw [List.append_nil, toZMod_zero, zero_mul, zero_add] at hread
  rw [readNumeral, if_neg (by simpa using hne), hread, readDigits]

theorem readNumeral_of_not_isDigit {radix : Radix} {good : List Char} {c : Char}
    (h : ∀ d ∈ good, radix.IsDigit d) (hc : ¬ radix.IsDigit c) (index : ℕ) (rest : List Char) :
    readNumeral radix index (good ++ c :: rest) = .error
      (.parse radix (.invalidDigit (index + (String.ofList good).utf8ByteSize) c)) := by
  have hnone : radix.digit? c = none := by
    cases hd : radix.digit? c with
    | none => rfl
    | some d => exact absurd (Radix.isDigit_iff.2 ⟨d, hd⟩) hc
  rw [readNumeral, if_neg (by simp), readDigits_append h, readDigits, hnone]

theorem readNumeral_nil (radix : Radix) (index : ℕ) :
    readNumeral radix index [] = .error (.parse radix .empty) := rfl

/-- What is answered for the text `digits` behind `front`: the integer that it denotes, with a sign
and modulo the prime, or what is wrong with it. -/
inductive Reading (radix : Radix) (front : List Char) (sign : ℤ) :
    List Char → Except Error Felt → Prop where
  | value {digits : List Char} {a : Felt} (nonempty : digits ≠ [])
      (digit : ∀ c ∈ digits, radix.IsDigit c)
      (value : (a.toNat : ℤ) = sign * radix.integer digits % prime) :
      Reading radix front sign digits (.ok a)
  | empty : Reading radix front sign [] (.error (.parse radix .empty))
  | invalidDigit {good rest : List Char} {c : Char} (digit : ∀ d ∈ good, radix.IsDigit d)
      (found : ¬ radix.IsDigit c) :
      Reading radix front sign (good ++ c :: rest) (.error
        (.parse radix (.invalidDigit (String.ofList (front ++ good)).utf8ByteSize c)))

/-- Text is digits throughout, or has a first character that is none. -/
theorem isDigit_or_exists_first (radix : Radix) (text : List Char) :
    (∀ c ∈ text, radix.IsDigit c) ∨ ∃ good c rest,
      text = good ++ c :: rest ∧ (∀ d ∈ good, radix.IsDigit d) ∧ ¬ radix.IsDigit c := by
  induction text with
  | nil => exact .inl (by simp)
  | cons c text ih =>
    by_cases hc : radix.IsDigit c
    · rcases ih with h | ⟨good, d, rest, rfl, hgood, hd⟩
      · exact .inl (by simpa [hc] using h)
      · exact .inr ⟨c :: good, d, rest, rfl, by simpa [hc] using hgood, hd⟩
    · exact .inr ⟨[], c, text, rfl, by simp, hc⟩

/-- Reading digits behind `front` answers a reading of them, and no other. -/
theorem map_readNumeral_eq_iff {radix : Radix} {front digits : List Char} {sign : ℤ}
    {f : Felt → Felt} (hf : ∀ a, (f a).toZMod = sign * a.toZMod) (result : Except Error Felt) :
    (readNumeral radix (String.ofList front).utf8ByteSize digits).map f = result ↔
      Reading radix front sign digits result := by
  have hsize : ∀ good : List Char, (String.ofList (front ++ good)).utf8ByteSize =
      (String.ofList front).utf8ByteSize + (String.ofList good).utf8ByteSize := fun good => by
    rw [String.ofList_append, String.utf8ByteSize_append]
  have hvalue : (f (ofZMod (radix.integer digits))).toZMod =
      ((sign * radix.integer digits : ℤ) : ZMod prime) := by
    rw [hf, toZMod_ofZMod]
    push_cast
    rfl
  constructor
  · rintro rfl
    rcases isDigit_or_exists_first radix digits with h | ⟨good, c, rest, rfl, hgood, hc⟩
    · by_cases hne : digits = []
      · subst hne
        exact .empty
      · rw [readNumeral_of_isDigit hne h]
        exact .value hne h (toNat_eq_emod hvalue)
    · rw [readNumeral_of_not_isDigit hgood hc, ← hsize]
      exact .invalidDigit hgood hc
  · intro h
    cases h with
    | value hne hdigit ha =>
      rw [readNumeral_of_isDigit hne hdigit, Except.map]
      congr 1
      have hz := toNat_eq_emod hvalue
      rw [← ha] at hz
      exact toNat_inj.1 (Int.ofNat.inj hz)
    | empty => rw [readNumeral_nil, Except.map]
    | invalidDigit hgood hc => rw [readNumeral_of_not_isDigit hgood hc, Except.map, hsize]

theorem Reading.exists_ok_iff {radix : Radix} {front digits : List Char} {sign : ℤ}
    {result : Except Error Felt} (h : Reading radix front sign digits result) :
    (∃ a, result = .ok a) ↔ digits ≠ [] ∧ ∀ c ∈ digits, radix.IsDigit c := by
  cases h with
  | value hne hdigit => exact ⟨fun _ => ⟨hne, hdigit⟩, fun _ => ⟨_, rfl⟩⟩
  | empty => simp
  | invalidDigit _ hc =>
    exact ⟨nofun, fun h => absurd (h.2 _ (List.mem_append_right _ List.mem_cons_self)) hc⟩

def leadingMark (text : List Char) : List Char :=
  if ['0', 'x'] <+: text then ['0', 'x'] else if ['0', 'X'] <+: text then ['0', 'X'] else []

def leadingSign (text : List Char) : List Char := if ['-'] <+: text then ['-'] else []

theorem readHex_eq (text : List Char) : ∃ digits, text = leadingMark text ++ digits ∧
    readHex text =
      readNumeral .hexadecimal (String.ofList (leadingMark text)).utf8ByteSize digits := by
  fun_cases readHex text with
  | case1 digits => exact ⟨digits, by simp [leadingMark], by simp [leadingMark]; rfl⟩
  | case2 digits => exact ⟨digits, by simp [leadingMark], by simp [leadingMark]; rfl⟩
  | case3 _ hx hX =>
    have hmark : leadingMark text = [] := by
      rw [leadingMark, if_neg, if_neg]
      · rintro ⟨digits, rfl⟩
        exact hX digits rfl
      · rintro ⟨digits, rfl⟩
        exact hx digits rfl
    exact ⟨text, by rw [hmark, List.nil_append], by rw [hmark]; rfl⟩

theorem readDecimal_eq (text : List Char) : ∃ digits, text = leadingSign text ++ digits ∧
    readDecimal text =
      (readNumeral .decimal (String.ofList (leadingSign text)).utf8ByteSize digits).map
        (if leadingSign text = [] then id else (- ·)) := by
  fun_cases readDecimal text with
  | case1 digits => exact ⟨digits, by simp [leadingSign], by simp [leadingSign]; rfl⟩
  | case2 _ hsign =>
    have hempty : leadingSign text = [] := by
      rw [leadingSign, if_neg]
      rintro ⟨digits, rfl⟩
      exact hsign digits rfl
    refine ⟨text, by rw [hempty, List.nil_append], ?_⟩
    rw [if_pos hempty, hempty, Except.map_id]
    rfl

theorem isMarkedHex_iff {text : List Char} :
    isMarkedHex text = true ↔ ['0', 'x'] <+: text ∨ ['0', 'X'] <+: text := by
  fun_cases isMarkedHex text with
  | case1 digits => simp
  | case2 digits => simp
  | case3 _ hx hX =>
    refine ⟨nofun, ?_⟩
    rintro (⟨digits, rfl⟩ | ⟨digits, rfl⟩)
    · exact absurd rfl (hx digits)
    · exact absurd rfl (hX digits)

theorem ofHex_reading (text : String) : ∃ digits, text.toList = leadingMark text.toList ++ digits ∧
    ∀ result, ofHex text = result ↔
      Reading .hexadecimal (leadingMark text.toList) 1 digits result := by
  obtain ⟨digits, htext, hread⟩ := readHex_eq text.toList
  refine ⟨digits, htext, fun result => ?_⟩
  rw [← map_readNumeral_eq_iff (f := id) (fun a => by simp), Except.map_id, ofHex, hread]
  rfl

theorem ofDecimal_reading (text : String) :
    ∃ digits, text.toList = leadingSign text.toList ++ digits ∧
    ∀ result, ofDecimal text = result ↔
      Reading .decimal (leadingSign text.toList)
        (if leadingSign text.toList = [] then 1 else -1) digits result := by
  obtain ⟨digits, htext, hread⟩ := readDecimal_eq text.toList
  refine ⟨digits, htext, fun result => ?_⟩
  rw [← map_readNumeral_eq_iff, ofDecimal, hread]
  intro a
  by_cases h : leadingSign text.toList = [] <;> simp [h]

/-- The readers accept one digit or more behind an optional mark or sign and nothing else, and
answer other text with its first character that is no digit. -/
theorem parse_grammar (text : String) :
    (∃ digits, text.toList = leadingMark text.toList ++ digits ∧
      ((∃ a, ofHex text = .ok a) ↔ digits ≠ [] ∧ ∀ c ∈ digits, Radix.hexadecimal.IsDigit c) ∧
      ∀ result, ofHex text = result ↔
        Reading .hexadecimal (leadingMark text.toList) 1 digits result) ∧
    (∃ digits, text.toList = leadingSign text.toList ++ digits ∧
      ((∃ a, ofDecimal text = .ok a) ↔ digits ≠ [] ∧ ∀ c ∈ digits, Radix.decimal.IsDigit c) ∧
      ∀ result, ofDecimal text = result ↔
        Reading .decimal (leadingSign text.toList)
          (if leadingSign text.toList = [] then 1 else -1) digits result) ∧
    parse text = if ['0', 'x'] <+: text.toList ∨ ['0', 'X'] <+: text.toList then ofHex text
      else ofDecimal text := by
  refine ⟨?_, ?_, ?_⟩
  · obtain ⟨digits, htext, hiff⟩ := ofHex_reading text
    exact ⟨digits, htext, ((hiff _).1 rfl).exists_ok_iff, hiff⟩
  · obtain ⟨digits, htext, hiff⟩ := ofDecimal_reading text
    exact ⟨digits, htext, ((hiff _).1 rfl).exists_ok_iff, hiff⟩
  · simp only [parse, isMarkedHex_iff]

-- Only one mark is taken off.
example : ofHex "0x0x1" = .error (.parse .hexadecimal (.invalidDigit 3 'x')) := by rfl

end Felt

end FieldSponge
