import FieldSponge.ConstantTable
import FieldSponge.Felt.Json
import FieldSponge.Hades.Starknet
import FieldSponge.Proofs.TextRoundTrips

/-! Errors told from their messages. A character is quoted by characters that are shown, and can be
read back from them; numerals end where their digits end. So two errors with one message are the
same error. -/
namespace FieldSponge
namespace Text

/-- Between any two of the ranges stands a character with a shape. -/
theorem shapelessRanges_isChain : (∀ r ∈ shapelessRanges.toList, r.1 ≤ r.2) ∧
    shapelessRanges.toList.IsChain fun r s => r.2 + 1 < s.1 := by
  decide +kernel

/-- No range of characters without a shape touches the printable part of ASCII. -/
theorem isShown_of_ascii {c : Char} (hlow : 32 ≤ c.toNat) (hhigh : c.toNat < 127) :
    isShown c = true := by
  have hall : ∀ r ∈ shapelessRanges.toList, r.2 < 32 ∨ 127 ≤ r.1 := by decide +kernel
  rw [isShown, ← Array.any_toList, Bool.not_eq_true', List.any_eq_false]
  intro r hr
  have h := hall r hr
  simp
  omega

theorem isShown_of_mem_toDigits {n : ℕ} {d : Char} (h : d ∈ Nat.toDigits 16 n) :
    isShown d = true := by
  have hdigit := (Radix.hexadecimal.isNumeral_toDigits n).digit d h
  have hall : ∀ p ∈ Radix.hexadecimal.digits, 32 ≤ p.1.toNat ∧ p.1.toNat < 127 := by decide
  obtain ⟨v, hv⟩ := Option.isSome_iff_exists.1 hdigit
  obtain ⟨hlow, hhigh⟩ := hall _ (Radix.mem_digits_of_value? hv)
  exact isShown_of_ascii hlow hhigh

def shortEscapes : List (Char × Char) :=
  [('\x00', '0'), ('\t', 't'), ('\r', 'r'), ('\n', 'n'), ('\\', '\\'), ('\'', '\'')]

theorem escaped_cases (c : Char) :
    (∃ e, (c, e) ∈ shortEscapes ∧ escaped c = ['\\', e]) ∨
      isShown c = true ∧ escaped c = [c] ∨ escaped c = codePoint c := by
  rw [escaped]
  split_ifs with hzero htab hreturn hline hbackslash hquote hshown
  · exact .inl ⟨'0', by simp [shortEscapes, hzero], rfl⟩
  · exact .inl ⟨'t', by simp [shortEscapes, htab], rfl⟩
  · exact .inl ⟨'r', by simp [shortEscapes, hreturn], rfl⟩
  · exact .inl ⟨'n', by simp [shortEscapes, hline], rfl⟩
  · exact .inl ⟨'\\', by simp [shortEscapes, hbackslash], rfl⟩
  · exact .inl ⟨'\'', by simp [shortEscapes, hquote], rfl⟩
  · exact .inr (.inl ⟨hshown, rfl⟩)
  · exact .inr (.inr rfl)

/-- Nothing without a shape of its own is left where a character is quoted. -/
theorem isShown_of_mem_escaped {c d : Char} (h : d ∈ escaped c) : isShown d = true := by
  have hbackslash : isShown '\\' = true := isShown_of_ascii (by decide) (by decide)
  rcases escaped_cases c with ⟨e, he, heq⟩ | ⟨hc, heq⟩ | heq
  · have hall : ∀ p ∈ shortEscapes, 32 ≤ p.2.toNat ∧ p.2.toNat < 127 := by decide
    rw [heq, List.mem_cons, List.mem_singleton] at h
    rcases h with rfl | rfl
    · exact hbackslash
    · exact isShown_of_ascii (hall _ he).1 (hall _ he).2
  · rw [heq, List.mem_singleton] at h
    exact h ▸ hc
  · rw [heq, codePoint, List.mem_append, List.mem_append] at h
    rcases h with (hmark | hdigit) | hend
    · rw [List.mem_cons, List.mem_cons, List.mem_singleton] at hmark
      rcases hmark with rfl | rfl | rfl <;> exact isShown_of_ascii (by decide) (by decide)
    · exact isShown_of_mem_toDigits hdigit
    · rw [List.mem_singleton.1 hend]
      exact isShown_of_ascii (by decide) (by decide)

/-- The character that an escape stands for. -/
def unescaped : List Char → Char
  | [c] => c
  | [_, e] => ((shortEscapes.find? fun p => p.2 = e).map Prod.fst).getD e
  | text => Char.ofNat (Radix.hexadecimal.integer (text.drop 3).dropLast)

theorem unescaped_escaped (c : Char) : unescaped (escaped c) = c := by
  rcases escaped_cases c with ⟨e, he, heq⟩ | ⟨-, heq⟩ | heq
  · have hall : ∀ p ∈ shortEscapes, unescaped ['\\', p.2] = p.1 := by decide
    rw [heq]
    exact hall (c, e) he
  · rw [heq, unescaped]
  · have hcode : codePoint c = '\\' :: 'u' :: '\x7b' :: (Nat.toDigits 16 c.toNat ++ ['\x7d']) := by
      rw [codePoint, List.append_assoc]
      rfl
    rw [heq, hcode, unescaped, List.drop_succ_cons, List.drop_succ_cons, List.drop_succ_cons,
      List.drop_zero, List.dropLast_concat]
    · exact (congrArg Char.ofNat (Radix.hexadecimal.isNumeral_toDigits c.toNat).integer).trans
        (Char.ofNat_toNat c)
    · simp
    · simp

theorem escaped_injective : Function.Injective escaped :=
  Function.LeftInverse.injective unescaped_escaped

end Text

namespace Numeral

/-- Digits end where something else begins. -/
theorem append_inj_of_isDigit {xs ys s t : List Char} (hx : ∀ c ∈ xs, c.isDigit = true)
    (hy : ∀ c ∈ ys, c.isDigit = true) (hs : ∀ c ∈ s.head?, ¬ c.isDigit = true)
    (ht : ∀ c ∈ t.head?, ¬ c.isDigit = true) (h : xs ++ s = ys ++ t) : xs = ys ∧ s = t := by
  have htake : ∀ {zs u : List Char}, (∀ c ∈ zs, c.isDigit = true) →
      (∀ c ∈ u.head?, ¬ c.isDigit = true) → (zs ++ u).takeWhile Char.isDigit = zs := by
    intro zs u hz hu
    rw [List.takeWhile_append_of_pos hz]
    cases u with
    | nil => simp
    | cons c u => rw [List.takeWhile_cons_of_neg (hu c rfl), List.append_nil]
  have hdigits : xs = ys := by rw [← htake hx hs, h, htake hy ht]
  exact ⟨hdigits, List.append_cancel_left (hdigits ▸ h)⟩

theorem isDigit_of_mem_toDigits {n : ℕ} : ∀ c ∈ Nat.toDigits 10 n, c.isDigit = true := fun _ hc =>
  Nat.isDigit_of_mem_toDigits (by decide) (by decide) hc

theorem toDigits_inj {n m : ℕ} (h : Nat.toDigits 10 n = Nat.toDigits 10 m) : n = m := by
  have hvalue : ∀ k, Nat.ofDigitChars 10 (Nat.toDigits 10 k) 0 = k := fun _ =>
    Nat.ofDigitChars_toDigits (by decide) (by decide)
  rw [← hvalue n, h, hvalue]

theorem toDigits_append_inj {n m : ℕ} {s t : List Char} (hs : ∀ c ∈ s.head?, ¬ c.isDigit = true)
    (ht : ∀ c ∈ t.head?, ¬ c.isDigit = true)
    (h : Nat.toDigits 10 n ++ s = Nat.toDigits 10 m ++ t) : n = m ∧ s = t :=
  (append_inj_of_isDigit isDigit_of_mem_toDigits isDigit_of_mem_toDigits hs ht h).imp_left
    toDigits_inj

theorem append_toDigits_inj {n m : ℕ} {s t : List Char}
    (hs : ∀ c ∈ s.getLast?, ¬ c.isDigit = true) (ht : ∀ c ∈ t.getLast?, ¬ c.isDigit = true)
    (h : s ++ Nat.toDigits 10 n = t ++ Nat.toDigits 10 m) : s = t ∧ n = m := by
  have hreverse := congrArg List.reverse h
  rw [List.reverse_append, List.reverse_append] at hreverse
  obtain ⟨hdigits, hrest⟩ := append_inj_of_isDigit
    (fun c hc => isDigit_of_mem_toDigits c (List.mem_reverse.1 hc))
    (fun c hc => isDigit_of_mem_toDigits c (List.mem_reverse.1 hc))
    (by rwa [List.head?_reverse]) (by rwa [List.head?_reverse]) hreverse
  exact ⟨List.reverse_inj.1 hrest, toDigits_inj (List.reverse_inj.1 hdigits)⟩

/-- Two numerals with something else between them can be told apart. -/
theorem toDigits_pair_inj {n m n' m' : ℕ} {s : List Char}
    (hs : s.head?.map Char.isDigit = some false)
    (h : Nat.toDigits 10 n ++ (s ++ Nat.toDigits 10 m) =
      Nat.toDigits 10 n' ++ (s ++ Nat.toDigits 10 m')) : n = n' ∧ m = m' := by
  obtain ⟨c, hc, hdigit⟩ := Option.map_eq_some_iff.1 hs
  have hhead : ∀ u : List Char, ∀ d ∈ (s ++ u).head?, ¬ d.isDigit = true := by
    intro u d hd
    rw [List.head?_append, hc, Option.some_or, Option.mem_some_iff] at hd
    rw [← hd, hdigit]
    decide
  obtain ⟨hfirst, htail⟩ := toDigits_append_inj (hhead _) (hhead _) h
  exact ⟨hfirst, toDigits_inj (List.append_cancel_left htail)⟩

theorem toList_toString (n : ℕ) : (toString n).toList = Nat.toDigits 10 n := by
  rw [Nat.toString_eq_repr, Nat.repr_eq_ofList_toDigits, String.toList_ofList]

end Numeral

theorem Radix.base_injective : Function.Injective Radix.base := by
  rintro ⟨⟩ ⟨⟩ h <;> first | rfl | exact absurd h (by decide)

theorem toString_string (s : String) : toString s = s := rfl

theorem toString_word (w : UInt64) : toString w = toString w.toNat := rfl

open Numeral

namespace Felt

theorem Error.toList_message_invalidDigit (radix : Radix) (index : ℕ) (found : Char) :
    (parse radix (.invalidDigit index found)).message.toList = "invalid base-".toList ++
      (Nat.toDigits 10 radix.base.toNat ++ (" digit '".toList ++ Text.escaped found ++
        "' at position ".toList ++ Nat.toDigits 10 index)) := by
  unfold message
  simp [toString_string, toString_word, Text.quoted]

theorem Error.eq_of_message_invalidDigit_eq {radix radix' : Radix} {index index' : ℕ}
    {found found' : Char} (h : (parse radix (.invalidDigit index found)).message =
      (parse radix' (.invalidDigit index' found')).message) :
    parse radix (.invalidDigit index found) = parse radix' (.invalidDigit index' found') := by
  replace h := congrArg String.toList h
  rw [toList_message_invalidDigit, toList_message_invalidDigit] at h
  have hspace : ∀ u : List Char, ∀ c ∈ (u ++ "' at position ".toList).getLast?,
      ¬ c.isDigit = true := by
    intro u
    rw [List.getLast?_append]
    simp
  obtain ⟨hbase, htail⟩ := toDigits_append_inj (by simp) (by simp) (List.append_cancel_left h)
  -- What is quoted may hold digits, so the index is taken off the end first.
  obtain ⟨hfound, hindex⟩ := append_toDigits_inj (hspace _) (hspace _) htail
  have hradix := Radix.base_injective (UInt64.toNat_inj.1 hbase)
  have hescaped := List.append_cancel_left (List.append_cancel_right hfound)
  rw [hradix, hindex, Text.escaped_injective hescaped]

theorem Error.message_injective : Function.Injective message := by
  intro e f h
  rcases e with ⟨radix, _ | ⟨index, found⟩⟩ | ⟨expected, actual⟩ | _ | bits <;>
    rcases f with ⟨radix', _ | ⟨index', found'⟩⟩ | ⟨expected', actual'⟩ | _ | bits'
  case divisionByZero.divisionByZero => rfl
  case parse.invalidDigit.parse.invalidDigit => exact eq_of_message_invalidDigit_eq h
  all_goals
    replace h := congrArg String.toList h
    unfold message at h
    simp only [toString_string, toString_word, String.toList_append, toList_toString,
      List.append_assoc] at h
  case parse.empty.parse.empty =>
    have hbase := List.append_cancel_right (List.append_cancel_left h)
    rw [Radix.base_injective (UInt64.toNat_inj.1 (toDigits_inj hbase))]
  case length.length =>
    obtain ⟨hexpected, hactual⟩ := toDigits_pair_inj (by decide) (List.append_cancel_left h)
    rw [hexpected, hactual]
  case outOfRange.outOfRange =>
    rw [toDigits_inj (List.append_cancel_right (List.append_cancel_left h))]
  -- Messages of different kinds differ in their first letter.
  all_goals simp at h

/-- A fault of the text of an element has a message that no other value of JSON is refused with. -/
theorem JsonError.eq_of_message_malformed_eq {e : Error} {x : JsonError}
    (h : (malformed e).message = x.message) : x = malformed e := by
  cases x with
  | malformed f => exact congrArg malformed (Error.message_injective h).symm
  | unexpected value =>
    replace h := congrArg String.toList h
    unfold message Error.message at h
    rcases e with ⟨radix, _ | ⟨index, found⟩⟩ | ⟨expected, actual⟩ | _ | bits <;>
      simp [toString_string] at h

end Felt

namespace Hades

theorem RowMismatch.message_injective : Function.Injective RowMismatch.message := by
  intro e f h
  replace h := congrArg String.toList h
  unfold message at h
  simp only [toString_string, String.toList_append, toList_toString, List.append_assoc] at h
  obtain ⟨hrows, hrounds⟩ := toDigits_pair_inj (by decide)
    (List.append_cancel_left (List.append_cancel_left h))
  cases e
  cases f
  cases hrows
  cases hrounds
  rfl

theorem Starknet.ShapeError.message_injective : Function.Injective Starknet.ShapeError.message := by
  intro e f h
  replace h := congrArg String.toList h
  unfold message at h
  simp only [toString_string, String.toList_append, toList_toString, List.append_assoc] at h
  obtain ⟨hexpected, hactual⟩ := toDigits_pair_inj (by decide) (List.append_cancel_left h)
  cases e
  cases f
  cases hexpected
  cases hactual
  rfl

end Hades

theorem ConstantTable.Invalid.message_injective :
    Function.Injective ConstantTable.Invalid.message := by
  intro e f h
  replace h := congrArg String.toList h
  unfold message at h
  cases e <;> cases f <;> simp only [toString_string, String.toList_append, toList_toString] at h
  case narrow.narrow => rw [toDigits_inj (List.append_cancel_left h)]
  case noRounds.noRounds => rfl
  all_goals simp at h

end FieldSponge
