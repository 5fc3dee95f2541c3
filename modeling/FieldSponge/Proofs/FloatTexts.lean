import FieldSponge.Proofs.JsonValues
import FieldSponge.Proofs.ShortestDecimals

/-! Floating-point numbers in messages. A decimal is written as a numeral of JSON, in one of four
layouts by the place of its point, and the numeral that is read from it denotes the decimal. -/
namespace FieldSponge
namespace Radix

theorem isDigit_of_mem_zeros {k : ℕ} {c : Char} (h : c ∈ List.replicate k '0') :
    decimal.IsDigit c := by
  rw [List.eq_of_mem_replicate h]
  decide

theorem IsNumeral.append_zeros {n : ℕ} {text : List Char} (h : decimal.IsNumeral n text) (k : ℕ) :
    decimal.IsNumeral (n * 10 ^ k) (text ++ List.replicate k '0') where
  nonempty := List.append_ne_nil_of_left_ne_nil h.nonempty _
  digit c hc := (List.mem_append.1 hc).elim (h.digit c) isDigit_of_mem_zeros
  integer := by
    rw [integer_append, h.integer, integer_replicate_zero, List.length_replicate, Nat.add_zero]
    rfl

theorem IsNumeral.zeros_append {n : ℕ} {text : List Char} (h : decimal.IsNumeral n text) (k : ℕ) :
    decimal.IsNumeral n (List.replicate k '0' ++ text) where
  nonempty := List.append_ne_nil_of_right_ne_nil _ h.nonempty
  digit c hc := (List.mem_append.1 hc).elim isDigit_of_mem_zeros (h.digit c)
  integer := by rw [integer_append, h.integer, integer_replicate_zero, Nat.zero_mul, Nat.zero_add]

end Radix

namespace Json
namespace Literal

def fractionDigits (l : Literal) : List Char := l.fraction.getD []

def power (l : Literal) : ℤ :=
  l.exponent.elim 0 fun (negative, digits) =>
    if negative then -(Radix.decimal.integer digits : ℤ) else Radix.decimal.integer digits

def magnitude (l : Literal) : ℚ :=
  Radix.decimal.integer (l.whole ++ l.fractionDigits) * 10 ^ (l.power - l.fractionDigits.length)

end Literal

namespace Spelling

def pointed (negative : Bool) (whole fraction : List Char) (hne : whole ≠ [])
    (h : ∀ c ∈ whole ++ fraction, Radix.decimal.IsDigit c) : Spelling where
  __ := plain whole hne fun c hc => h c (List.mem_append_left _ hc)
  parts := ⟨negative, whole, some fraction, none⟩
  fraction _ hdigits c hc := h c (List.mem_append_right _ (Option.some.inj hdigits ▸ hc))
  exponent := nofun

/-- The digits with a point only in front of others, and a power of ten with its sign. -/
def scientific (negative : Bool) (whole fraction : List Char) (power : ℤ) (hne : whole ≠ [])
    (h : ∀ c ∈ whole ++ fraction, Radix.decimal.IsDigit c) : Spelling where
  __ := plain whole hne fun c hc => h c (List.mem_append_left _ hc)
  parts := ⟨negative, whole, if fraction = [] then none else some fraction,
    some (decide (power < 0), Nat.toDigits 10 power.natAbs)⟩
  plus := true
  fraction _ hdigits c hc := h c (List.mem_append_right _
    (Option.some.inj (Option.ite_none_left_eq_some.1 hdigits).2 ▸ hc))
  exponent _ he := Option.some.inj he ▸ (Radix.decimal.isNumeral_toDigits power.natAbs).digit

variable {negative : Bool} {n : ℕ} {whole fraction : List Char} (hne : whole ≠ [])
  (h : Radix.decimal.IsNumeral n (whole ++ fraction))

theorem bodyText_pointed :
    (pointed negative whole fraction hne h.digit).bodyText = whole ++ '.' :: fraction :=
  List.append_nil _

theorem magnitude_pointed : (pointed negative whole fraction hne h.digit).parts.magnitude =
    n * 10 ^ (-fraction.length : ℤ) := by
  rw [Literal.magnitude, Literal.power, Literal.fractionDigits, pointed, Option.elim_none,
    zero_sub, Option.getD_some, h.integer]

theorem bodyText_scientific (power : ℤ) :
    (scientific negative whole fraction power hne h.digit).bodyText =
      whole ++ (if fraction = [] then [] else '.' :: fraction) ++
        'e' :: (if power < 0 then '-' else '+') :: Nat.toDigits 10 power.natAbs := by
  rw [bodyText, mantissaText, fractionText, exponentText, scientific]
  by_cases hempty : fraction = [] <;> by_cases hneg : power < 0 <;>
    simp [plain, hempty, hneg]

theorem magnitude_scientific (power : ℤ) :
    (scientific negative whole fraction power hne h.digit).parts.magnitude =
      n * 10 ^ (power - fraction.length) := by
  have hfraction : (scientific negative whole fraction power hne h.digit).parts.fractionDigits =
      fraction := by
    by_cases hempty : fraction = [] <;> simp [Literal.fractionDigits, scientific, hempty]
  have hpower : (scientific negative whole fraction power hne h.digit).parts.power = power := by
    have hdigits : Radix.decimal.integer (Nat.toDigits 10 power.natAbs) = power.natAbs :=
      (Radix.decimal.isNumeral_toDigits power.natAbs).integer
    simp only [Literal.power, scientific, Option.elim_some, hdigits, decide_eq_true_eq]
    omega
  rw [Literal.magnitude, hfraction, hpower, scientific, h.integer]

end Spelling

/-- The text is one of a number that is no integer in form, behind any sign. -/
def Spells (text : List Char) (magnitude : ℚ) : Prop :=
  ∀ negative, ∃ x : Spelling, x.parts.negative = negative ∧ x.bodyText = text ∧
    ¬ x.IsPlain ∧ x.parts.magnitude = magnitude

theorem spells_point {n : ℕ} {whole fraction : List Char} (hne : whole ≠ [])
    (h : Radix.decimal.IsNumeral n (whole ++ fraction)) :
    Spells (whole ++ '.' :: fraction) (n * 10 ^ (-fraction.length : ℤ)) := fun negative =>
  ⟨.pointed negative whole fraction hne h.digit, rfl, Spelling.bodyText_pointed hne h,
    fun hplain => Option.some_ne_none _ hplain.2.1, Spelling.magnitude_pointed hne h⟩

theorem spells_power {n : ℕ} {whole fraction : List Char} (hne : whole ≠ [])
    (h : Radix.decimal.IsNumeral n (whole ++ fraction)) (power : ℤ) :
    Spells (whole ++ (if fraction = [] then [] else '.' :: fraction) ++
        'e' :: (if power < 0 then '-' else '+') :: Nat.toDigits 10 power.natAbs)
      (n * 10 ^ (power - fraction.length)) := fun negative =>
  ⟨.scientific negative whole fraction power hne h.digit, rfl,
    Spelling.bodyText_scientific hne h power, fun hplain => Option.some_ne_none _ hplain.2.2,
    Spelling.magnitude_scientific hne h power⟩

namespace Number

/-- What is written for a decimal denotes it, in each of the layouts. -/
theorem spells_layout (x : Decimal) : Spells (layout x) x.value := by
  have hdigits : Radix.decimal.IsNumeral x.digits (Nat.toDigits 10 x.digits) :=
    Radix.decimal.isNumeral_toDigits x.digits
  rw [layout, Decimal.value]
  generalize Nat.toDigits 10 x.digits = digits at hdigits
  obtain ⟨first, rest, rfl⟩ := List.exists_cons_of_ne_nil hdigits.nonempty
  have hlength : (first :: rest).length = rest.length + 1 := List.length_cons
  dsimp only
  split
  · rename_i hinteger
    have hzeros := hdigits.append_zeros (x.exponent.toNat + 1)
    rw [List.replicate_succ', ← List.append_assoc] at hzeros
    convert spells_point (List.append_ne_nil_of_left_ne_nil hdigits.nonempty _) hzeros using 1
    push_cast
    rw [mul_assoc, ← zpow_natCast, ← zpow_add₀ (by norm_num)]
    congr 2
    rw [List.length_singleton]
    omega
  split
  · rename_i hbelow hpoint
    have hsplit := hdigits
    rw [← List.take_append_drop ((first :: rest).length + x.exponent).toNat (first :: rest)]
      at hsplit
    convert spells_point ?_ hsplit using 1
    · rw [List.length_drop]
      congr 2
      omega
    · rw [ne_eq, List.take_eq_nil_iff]
      rintro (hzero | hnil)
      · omega
      · exact List.cons_ne_nil _ _ hnil
  split
  · rename_i hsmall
    convert spells_point (List.cons_ne_nil '0' [])
      ((hdigits.zeros_append (-((first :: rest).length + x.exponent)).toNat).zeros_append 1)
      using 1
    · rfl
    · rw [List.length_append, List.length_replicate]
      congr 2
      omega
  · have hsplit : Radix.decimal.IsNumeral x.digits ([first] ++ rest) := hdigits
    convert spells_power (List.cons_ne_nil first []) hsplit
      ((first :: rest).length + x.exponent - 1) using 1
    · cases rest <;> simp
    · congr 2
      omega

theorem isDouble_binary {x : Float} (h : (binary x).significand ≠ 0) : (binary x).IsDouble := by
  have hfraction : (x.toBits &&& 0xfffffffffffff).toNat < 2 ^ 52 := by
    rw [UInt64.toNat_and]
    exact Nat.and_lt_two_pow _ (by decide)
  have hpos := Nat.pos_of_ne_zero h
  rw [binary] at hpos ⊢
  generalize (x.toBits &&& 0xfffffffffffff).toNat = fraction at hfraction hpos ⊢
  generalize ((x.toBits >>> 52) &&& 0x7ff).toNat = field at hpos ⊢
  rcases Nat.eq_zero_or_pos field with rfl | hfield
  · exact ⟨hpos, hfraction.trans (by norm_num), le_rfl, nofun⟩
  · rw [if_neg hfield.ne'] at hpos ⊢
    refine ⟨hpos, ?_, ?_, fun hnarrow => ?_⟩
    · show fraction + 0x10000000000000 < 2 ^ 53
      omega
    · show -1074 ≤ (field : ℤ) - 1075
      omega
    · have hzero : fraction = 0 := of_decide_eq_true (Bool.and_eq_true_iff.1 hnarrow).1
      show fraction + 0x10000000000000 = 2 ^ 52
      omega

/-- The text of a number is read as a numeral with a point or an exponent, that has its sign and
denotes the shortest decimal for it. -/
theorem read_floatText (x : Float) : ∃ s : Spelling, s.text = floatText x ∧ ¬ s.IsPlain ∧
    s.parts.negative = decide (x.toBits >>> 63 = 1) ∧
    s.parts.magnitude =
      if (binary x).significand = 0 then 0 else (Decimal.shortest (binary x)).value := by
  have hzero : Spells ['0', '.', '0'] 0 := by
    have hspells := spells_point (List.cons_ne_nil '0' []) (Radix.decimal.isNumeral_padded 2 0)
    rwa [Nat.cast_zero, zero_mul] at hspells
  have hbody : Spells (if (binary x).significand = 0 then ['0', '.', '0']
      else layout (Decimal.shortest (binary x)))
      (if (binary x).significand = 0 then 0 else (Decimal.shortest (binary x)).value) := by
    split
    · exact hzero
    · exact spells_layout _
  obtain ⟨s, hnegative, hbody, hplain, hmagnitude⟩ := hbody (decide (x.toBits >>> 63 = 1))
  refine ⟨s, ?_, hplain, hnegative, hmagnitude⟩
  simp only [Spelling.text, Spelling.signText, hnegative, hbody, floatText, decide_eq_true_eq]

/-- A number that is not zero is rounded from what its text denotes. -/
theorem standsFor_read_floatText {x : Float} (h : (binary x).significand ≠ 0) :
    (binary x).StandsFor (Literal.read (floatText x)).magnitude := by
  obtain ⟨s, htext, -, -, hmagnitude⟩ := read_floatText x
  rw [← htext, s.read_text, hmagnitude, if_neg h]
  exact (Decimal.shortest_spec (isDouble_binary h)).1

/-- The text of a floating-point number is never taken for an integer. -/
theorem ofText_floatText_ne_natural (x : Float) (n : UInt64) :
    ofText (floatText x) ≠ .natural n := by
  obtain ⟨s, htext, hplain, -⟩ := read_floatText x
  rw [← htext, ne_eq, s.ofText_eq_natural_iff]
  exact fun h => hplain h.1

end Number

end Json

end FieldSponge
