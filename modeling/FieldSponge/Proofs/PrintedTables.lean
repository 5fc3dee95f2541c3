import FieldSponge.CommandLine
import FieldSponge.Proofs.ByteEncodings
import FieldSponge.Proofs.TextRoundTrips

/-! Tables of round constants read back from the text that they are printed as. The text is read a
line at a time, and what is read from it are the constants: the canonical values of digests, in rows
of one length. -/
namespace FieldSponge
namespace ConstantTable

def lowerDigits : List Char := "0123456789abcdef".toList

/-- The word at the start of a text, of the mark and sixteen digits, and what stands behind it. -/
def word? (text : List Char) : Option (UInt64 × List Char) := do
  let rest ← text.dropPrefix? Numeral.hexMark
  let digits := rest.take 16
  if digits.length = 16 ∧ digits.all lowerDigits.contains then
    some (UInt64.ofNat (Radix.hexadecimal.integer digits), rest.drop 16)
  else none

def words? (line : List Char) : Option UInt256 := do
  let (w0, rest) ← word? (← line.dropPrefix? "        [".toList)
  let (w1, rest) ← word? (← rest.dropPrefix? ", ".toList)
  let (w2, rest) ← word? (← rest.dropPrefix? ", ".toList)
  let (w3, rest) ← word? (← rest.dropPrefix? ", ".toList)
  if rest = "],".toList then some ⟨w0, w1, w2, w3⟩ else none

/-- The decimal numeral at the start of a text, and what stands behind it. -/
def dimension? (text : List Char) : Option (ℕ × List Char) :=
  let digits := text.takeWhile Char.isDigit
  if digits = [] then none
  else some (Nat.ofDigitChars 10 digits 0, text.dropWhile Char.isDigit)

def dimensions? (line : List Char) : Option (ℕ × ℕ) := do
  let (width, rest) ← dimension?
    (← line.dropPrefix? "pub(crate) const ROUND_CONSTANTS_CANONICAL: [[[u64; 4]; ".toList)
  let (rounds, rest) ← dimension? (← rest.dropPrefix? "]; ".toList)
  if rest = "] = [".toList then some (width, rounds) else none

/-- The rows that have been read to their ends, and the one that has not, if there is one. -/
structure Progress where
  rows : List (List UInt256)
  row? : Option (List UInt256)

/-- A line of the table opens a row, ends it or is an entry of it. -/
def Progress.readLine (p : Progress) (line : List Char) : Option Progress :=
  match p.row? with
  | none => if line = "    [".toList then some ⟨p.rows, some []⟩ else none
  | some row =>
    if line = "    ],".toList then some ⟨p.rows ++ [row], none⟩
    else (words? line).map fun x => ⟨p.rows, some (row ++ [x])⟩

/-- A table as it is read: the dimensions that are declared, and the entries. -/
structure Printed where
  width : ℕ
  rounds : ℕ
  rows : List (List UInt256)

def read? (text : String) : Option Printed :=
  match text.toList.splitOn '\n' with
  | first :: second :: lines => do
    let (width, rounds) ← dimensions? second
    let body ← lines.dropSuffix? ["];".toList, []]
    let p ← body.foldlM Progress.readLine ⟨[], none⟩
    if first = "#[rustfmt::skip]".toList ∧ p.row? = none then some ⟨width, rounds, p.rows⟩ else none
  | _ => none

theorem dropPrefix?_append (front rest : List Char) :
    (front ++ rest).dropPrefix? front = some rest :=
  List.dropPrefix?_append_of_beq rest BEq.rfl

theorem mem_lowerDigits_digitChar {v : ℕ} (h : v < 16) : v.digitChar ∈ lowerDigits :=
  (by decide : ∀ v < 16, v.digitChar ∈ lowerDigits) v h

theorem mem_lowerDigits_of_mem_toDigits {n : ℕ} {c : Char} (h : c ∈ Nat.toDigits 16 n) :
    c ∈ lowerDigits := by
  induction n using Nat.strongRecOn with
  | _ n ih =>
    rw [Nat.toDigits_eq_if (by decide)] at h
    split at h
    · rename_i hlt
      rw [List.mem_singleton.1 h]
      exact mem_lowerDigits_digitChar hlt
    · rename_i hge
      rcases List.mem_append.1 h with hfront | hlast
      · exact ih _ (Nat.div_lt_self (by omega) (by decide)) hfront
      · rw [List.mem_singleton.1 hlast]
        exact mem_lowerDigits_digitChar (Nat.mod_lt n (by decide))

theorem mem_lowerDigits_of_mem_padded {n : ℕ} {c : Char} (h : c ∈ Numeral.padded 16 16 n) :
    c ∈ lowerDigits := by
  rcases List.mem_append.1 h with hzero | hdigit
  · rw [List.eq_of_mem_replicate hzero]
    decide
  · exact mem_lowerDigits_of_mem_toDigits hdigit

theorem length_padded_word (w : UInt64) : (Numeral.padded 16 16 w.toNat).length = 16 := by
  have hlt : w.toNat < 16 ^ 16 := w.toNat_lt
  rw [Numeral.padded, List.length_leftpad]
  exact Nat.max_eq_left ((Nat.length_toDigits_le_iff (by decide) (by decide)).2 hlt)

theorem word?_wordText (w : UInt64) (rest : List Char) :
    word? (wordText w ++ rest) = some (w, rest) := by
  have hl := length_padded_word w
  have hvalue : Radix.hexadecimal.integer (Numeral.padded 16 16 w.toNat) = w.toNat :=
    (Radix.hexadecimal.isNumeral_padded 16 w.toNat).integer
  rw [word?, wordText, List.append_assoc, dropPrefix?_append]
  simp only [Option.bind_eq_bind, Option.bind_some, List.take_left' hl, List.drop_left' hl, hvalue,
    UInt64.ofNat_toNat]
  refine if_pos ⟨hl, List.all_eq_true.2 fun c hc => ?_⟩
  exact List.contains_iff_mem.2 (mem_lowerDigits_of_mem_padded hc)

-- Digits are lower case.
example : word? "0x000000000000000A".toList = none := by decide

def entryLine (x : UInt256) : List Char :=
  "        [".toList ++ (wordText x.w0 ++ (", ".toList ++ (wordText x.w1 ++ (", ".toList ++
    (wordText x.w2 ++ (", ".toList ++ (wordText x.w3 ++ "],".toList)))))))

theorem words?_entryLine (x : UInt256) : words? (entryLine x) = some x := by
  -- An equation of a definition with texts in it is slow to derive, so it is unfolded in place.
  unfold entryLine
  rw [words?]
  simp only [dropPrefix?_append, word?_wordText, Option.bind_eq_bind, Option.bind_some]
  exact if_pos trivial

theorem dimension?_toDigits {n : ℕ} {text : List Char} (h : text.head? = some ']') :
    dimension? (Nat.toDigits 10 n ++ text) = some (n, text) := by
  obtain ⟨rest, rfl⟩ := List.head?_eq_some_iff.1 h
  have hbracket : ¬ ']'.isDigit = true := by decide
  have hdigit : ∀ d ∈ Nat.toDigits 10 n, d.isDigit = true := fun d hd =>
    Nat.isDigit_of_mem_toDigits (by decide) (by decide) hd
  have hne : Nat.toDigits 10 n ≠ [] := (Radix.decimal.isNumeral_toDigits n).nonempty
  rw [dimension?, List.takeWhile_append_of_pos hdigit, List.dropWhile_append_of_pos hdigit,
    List.takeWhile_cons_of_neg hbracket, List.dropWhile_cons_of_neg hbracket, List.append_nil]
  simp only [if_neg hne, Nat.ofDigitChars_ten_toDigits]

def declaration (width rounds : ℕ) : List Char :=
  "pub(crate) const ROUND_CONSTANTS_CANONICAL: [[[u64; 4]; ".toList ++ (Nat.toDigits 10 width ++
    ("]; ".toList ++ (Nat.toDigits 10 rounds ++ "] = [".toList)))

theorem dimensions?_declaration (width rounds : ℕ) :
    dimensions? (declaration width rounds) = some (width, rounds) := by
  have hwidth : ∀ rest, dimension? (Nat.toDigits 10 width ++ ("]; ".toList ++ rest)) =
      some (width, "]; ".toList ++ rest) := fun rest => dimension?_toDigits rfl
  have hrounds : dimension? (Nat.toDigits 10 rounds ++ "] = [".toList) =
      some (rounds, "] = [".toList) := dimension?_toDigits rfl
  unfold declaration
  rw [dimensions?]
  simp only [dropPrefix?_append, hwidth, hrounds, Option.bind_eq_bind, Option.bind_some]
  exact if_pos trivial

def rowLines (row : List UInt256) : List (List Char) :=
  "    [".toList :: (row.map entryLine ++ ["    ],".toList])

theorem readLine_open (rows : List (List UInt256)) :
    Progress.readLine ⟨rows, none⟩ "    [".toList = some ⟨rows, some []⟩ := by
  unfold Progress.readLine
  exact if_pos rfl

theorem readLine_close (rows : List (List UInt256)) (row : List UInt256) :
    Progress.readLine ⟨rows, some row⟩ "    ],".toList = some ⟨rows ++ [row], none⟩ := by
  unfold Progress.readLine
  exact if_pos rfl

theorem readLine_entryLine (rows : List (List UInt256)) (row : List UInt256) (x : UInt256) :
    Progress.readLine ⟨rows, some row⟩ (entryLine x) = some ⟨rows, some (row ++ [x])⟩ := by
  have hclose : words? "    ],".toList = none := by decide
  have hne : entryLine x ≠ "    ],".toList := fun h => by
    rw [← h, words?_entryLine] at hclose
    exact absurd hclose (Option.some_ne_none x)
  unfold Progress.readLine
  simp only [if_neg hne, words?_entryLine, Option.map_some]

theorem foldlM_readLine_entryLine (rows : List (List UInt256)) (read row : List UInt256) :
    (row.map entryLine).foldlM Progress.readLine ⟨rows, some read⟩ =
      some ⟨rows, some (read ++ row)⟩ := by
  induction row generalizing read with
  | nil =>
    rw [List.append_nil]
    rfl
  | cons x row ih =>
    rw [List.map_cons, List.foldlM_cons, readLine_entryLine, Option.bind_eq_bind, Option.bind_some,
      ih, List.append_assoc, List.singleton_append]

theorem foldlM_readLine_rowLines (rows : List (List UInt256)) (row : List UInt256) :
    (rowLines row).foldlM Progress.readLine ⟨rows, none⟩ = some ⟨rows ++ [row], none⟩ := by
  rw [rowLines, List.foldlM_cons, readLine_open, Option.bind_eq_bind, Option.bind_some,
    List.foldlM_append, foldlM_readLine_entryLine, Option.bind_eq_bind, Option.bind_some,
    List.nil_append, List.foldlM_cons, readLine_close]
  rfl

theorem foldlM_readLine_flatMap (read rows : List (List UInt256)) :
    (rows.flatMap rowLines).foldlM Progress.readLine ⟨read, none⟩ = some ⟨read ++ rows, none⟩ := by
  induction rows generalizing read with
  | nil =>
    rw [List.append_nil]
    rfl
  | cons row rows ih =>
    rw [List.flatMap_cons, List.foldlM_append, foldlM_readLine_rowLines, Option.bind_eq_bind,
      Option.bind_some, ih, List.append_assoc, List.singleton_append]

theorem splitOn_flatMap {lines : List (List Char)} (h : ∀ line ∈ lines, '\n' ∉ line) :
    (lines.flatMap (· ++ ['\n'])).splitOn '\n' = lines ++ [[]] := by
  induction lines with
  | nil => rfl
  | cons line lines ih =>
    rw [List.flatMap_cons, List.append_assoc, List.singleton_append,
      List.splitOn_append_cons_self_of_not_mem (h line List.mem_cons_self),
      ih fun line hmem => h line (List.mem_cons_of_mem _ hmem), List.cons_append]

theorem not_mem_wordText (w : UInt64) : '\n' ∉ wordText w := by
  intro h
  rcases List.mem_append.1 h with hmark | hdigit
  · exact absurd hmark (by decide)
  · exact absurd (mem_lowerDigits_of_mem_padded hdigit) (by decide)

theorem not_mem_toDigits (n : ℕ) : '\n' ∉ Nat.toDigits 10 n := by
  intro h
  have hdigit : '\n'.isDigit = true := Nat.isDigit_of_mem_toDigits (by decide) (by decide) h
  exact absurd hdigit (by decide)

theorem not_mem_entryLine (x : UInt256) : '\n' ∉ entryLine x := by
  unfold entryLine
  simp [not_mem_wordText]

theorem not_mem_declaration (width rounds : ℕ) : '\n' ∉ declaration width rounds := by
  unfold declaration
  simp [not_mem_toDigits]

theorem not_mem_rowLines (row : List UInt256) : ∀ line ∈ rowLines row, '\n' ∉ line := by
  intro line h
  rcases List.mem_cons.1 h with rfl | h
  · decide
  rcases List.mem_append.1 h with hentry | hclose
  · obtain ⟨x, -, rfl⟩ := List.mem_map.1 hentry
    exact not_mem_entryLine x
  · rw [List.mem_singleton.1 hclose]
    decide

def lines (width rounds : ℕ) (rows : List (List UInt256)) : List (List Char) :=
  "#[rustfmt::skip]".toList :: declaration width rounds ::
    (rows.flatMap rowLines ++ ["];".toList])

theorem not_mem_lines (width rounds : ℕ) (rows : List (List UInt256)) :
    ∀ line ∈ lines width rounds rows, '\n' ∉ line := by
  intro line h
  rcases List.mem_cons.1 h with rfl | h
  · decide
  rcases List.mem_cons.1 h with rfl | h
  · exact not_mem_declaration width rounds
  rcases List.mem_append.1 h with hrows | hend
  · obtain ⟨row, -, hrow⟩ := List.mem_flatMap.1 hrows
    exact not_mem_rowLines row line hrow
  · rw [List.mem_singleton.1 hend]
    decide

theorem read?_lines {text : String} {width rounds : ℕ} {rows : List (List UInt256)}
    (h : text.toList = (lines width rounds rows).flatMap (· ++ ['\n'])) :
    read? text = some ⟨width, rounds, rows⟩ := by
  have hbody : (rows.flatMap rowLines ++ ["];".toList] ++ [[]]).dropSuffix? ["];".toList, []] =
      some (rows.flatMap rowLines) :=
    List.dropSuffix?_eq_some_iff.2 ⟨_, List.append_assoc _ _ _, BEq.rfl⟩
  rw [read?, h, splitOn_flatMap (not_mem_lines width rounds rows)]
  unfold lines
  simp only [List.cons_append, dimensions?_declaration, hbody, foldlM_readLine_flatMap,
    Option.bind_eq_bind, Option.bind_some, List.nil_append]
  exact if_pos ⟨trivial, trivial⟩

theorem entryText_eq (a : Felt) : entryText a = entryLine a.toUInt256 ++ ['\n'] := by
  have hend : "],\n".toList = "],".toList ++ ['\n'] := by decide
  unfold entryText entryLine
  simp only [hend, List.append_assoc]

theorem flatMap_entryText (row : List Felt) :
    row.flatMap entryText = ((row.map Felt.toUInt256).map entryLine).flatMap (· ++ ['\n']) := by
  rw [List.map_map, List.flatMap_map]
  exact congrArg row.flatMap (funext entryText_eq)

theorem rowText_eq (row : List Felt) :
    rowText row = (rowLines (row.map Felt.toUInt256)).flatMap (· ++ ['\n']) := by
  have hopen : "    [\n".toList = "    [".toList ++ ['\n'] := by decide
  have hclose : "    ],\n".toList = "    ],".toList ++ ['\n'] := by decide
  unfold rowText rowLines
  rw [List.flatMap_cons, List.flatMap_append, List.flatMap_singleton, flatMap_entryText, hopen,
    hclose, List.append_assoc]

theorem flatMap_rowText (rows : List (List Felt)) : rows.flatMap rowText =
    ((rows.map (·.map Felt.toUInt256)).flatMap rowLines).flatMap (· ++ ['\n']) := by
  rw [List.flatMap_map, List.flatMap_assoc]
  exact congrArg rows.flatMap (funext rowText_eq)

theorem toList_header (t : ConstantTable) : t.header.toList =
    "#[rustfmt::skip]".toList ++ ['\n'] ++ (declaration t.width t.rounds ++ ['\n']) := by
  have hfirst :
      "#[rustfmt::skip]\npub(crate) const ROUND_CONSTANTS_CANONICAL: [[[u64; 4]; ".toList =
        "#[rustfmt::skip]".toList ++ ['\n'] ++
          "pub(crate) const ROUND_CONSTANTS_CANONICAL: [[[u64; 4]; ".toList := by decide
  have hlast : "] = [\n".toList = "] = [".toList ++ ['\n'] := by decide
  unfold header declaration
  simp only [String.toList_append, Nat.toList_repr, hfirst, hlast, List.append_assoc]

theorem toList_render (t : ConstantTable) (digest : Digest) : (t.render digest).toList =
    (lines t.width t.rounds ((t.rows digest).map (·.map Felt.toUInt256))).flatMap
      (· ++ ['\n']) := by
  have hend : "];\n".toList = "];".toList ++ ['\n'] := by decide
  unfold lines
  rw [render, String.toList_ofList, toList_header, flatMap_rowText, hend, List.flatMap_cons,
    List.flatMap_cons, List.flatMap_append, List.flatMap_singleton]
  simp only [List.append_assoc]

/-- A printed table is read as the canonical values of its entries. -/
theorem read?_render (t : ConstantTable) (digest : Digest) : read? (t.render digest) =
    some ⟨t.width, t.rounds, (t.rows digest).map (·.map Felt.toUInt256)⟩ :=
  read?_lines (t.toList_render digest)

theorem getElem?_rows {t : ConstantTable} {round : ℕ} (h : round < t.rounds) (digest : Digest) :
    (t.rows digest)[round]? = some ((List.range t.width).map (t.entry digest round)) := by
  rw [rows, List.getElem?_map, List.getElem?_range h, Option.map_some]

theorem length_of_mem_rows {t : ConstantTable} {digest : Digest} {row : List Felt}
    (h : row ∈ t.rows digest) : row.length = t.width := by
  obtain ⟨round, -, rfl⟩ := List.mem_map.1 h
  rw [List.length_map, List.length_range]

theorem exists_getElem?_map_rows {t : ConstantTable} {round column : ℕ} (hround : round < t.rounds)
    (hcolumn : column < t.width) (digest : Digest) :
    ∃ row, ((t.rows digest).map (·.map Felt.toUInt256))[round]? = some row ∧
      row[column]? = some (t.entry digest round column).toUInt256 := by
  refine ⟨((List.range t.width).map (t.entry digest round)).map Felt.toUInt256, ?_, ?_⟩
  · rw [List.getElem?_map, getElem?_rows hround, Option.map_some]
  · rw [List.getElem?_map, List.getElem?_map, List.getElem?_range hcolumn, Option.map_some,
      Option.map_some]

theorem flatten_rows (t : ConstantTable) (digest : Digest) : (t.rows digest).flatten =
    (List.range (t.rounds * t.width)).map (constant digest t.name) := by
  obtain ⟨name, rounds, width⟩ := t
  simp only [rows, entry]
  induction rounds with
  | zero =>
    rw [Nat.zero_mul]
    rfl
  | succ rounds ih =>
    rw [List.range_succ, List.map_append, List.flatten_append, ih, List.map_singleton,
      List.flatten_singleton, Nat.succ_mul, List.range_add, List.map_append, List.map_map,
      Nat.mul_comm width]
    rfl

theorem isPrefix_flatten_rows {s t : ConstantTable} (hname : s.name = t.name)
    (h : s.rounds * s.width ≤ t.rounds * t.width) (digest : Digest) :
    (s.rows digest).flatten <+: (t.rows digest).flatten := by
  have hrange : List.range (s.rounds * s.width) <+: List.range (t.rounds * t.width) := by
    rw [← Nat.min_eq_left h, ← List.take_range]
    exact List.take_prefix _ _
  rw [flatten_rows, flatten_rows, hname]
  exact hrange.map _

def hashed (t : ConstantTable) (round column : ℕ) : List UInt8 :=
  (t.name ++ Nat.repr (t.width * round + column)).toUTF8.toList

theorem entry_eq (t : ConstantTable) (digest : Digest) (round column : ℕ) :
    Felt.ofBytesBE (digest (t.hashed round column)).toList = .ok (t.entry digest round column) :=
  Felt.ofBytesBE_toList _

theorem toNat_entry (t : ConstantTable) (digest : Digest) (round column : ℕ) :
    (t.entry digest round column).toNat =
      Bytes.bigEndian (digest (t.hashed round column)).toList % prime := by
  rw [entry, constant, Felt.toNat_ofUInt256, UInt256.ofBytesBE, UInt256.toNat_ofBytesLE,
    Vector.toList_reverse]
  rfl

theorem toList_loop (bytes : ByteArray) (i : ℕ) (front : List UInt8) :
    ByteArray.toList.loop bytes i front = front.reverse ++ bytes.data.toList.drop i := by
  fun_induction ByteArray.toList.loop bytes i front with
  | case1 i front h ih =>
    have hlt : i < bytes.data.toList.length := h
    have hget : bytes.get! i = bytes.data.toList[i] := getElem!_pos bytes.data i h
    rw [ih, List.drop_eq_getElem_cons hlt, hget, List.reverse_cons, List.append_assoc,
      List.singleton_append]
  | case2 i front h =>
    have hle : bytes.data.toList.length ≤ i := Nat.le_of_not_lt h
    rw [List.drop_eq_nil_of_le hle, List.append_nil]

theorem toList_toUTF8_injective : Function.Injective fun text : String => text.toUTF8.toList := by
  intro s t h
  simp only [ByteArray.toList, toList_loop, List.reverse_nil, List.nil_append, List.drop_zero] at h
  exact String.toByteArray_inj.1 (ByteArray.ext (Array.toList_inj.1 h))

/-- Constants of one name are hashed from different bytes. -/
theorem toUTF8_seed_injective (name : String) :
    Function.Injective fun i => (seed name i).toUTF8.toList := by
  intro i j h
  have hrepr : Nat.repr i = Nat.repr j :=
    (String.append_right_inj name).1 (toList_toUTF8_injective h)
  have hdigits : Nat.toDigits 10 i = Nat.toDigits 10 j := by
    rw [← Nat.toList_repr, hrepr, Nat.toList_repr]
  calc i = Nat.ofDigitChars 10 (Nat.toDigits 10 i) 0 := Nat.ofDigitChars_ten_toDigits.symm
    _ = Nat.ofDigitChars 10 (Nat.toDigits 10 j) 0 := by rw [hdigits]
    _ = j := Nat.ofDigitChars_ten_toDigits

theorem eq_of_hashed_eq {t : ConstantTable} {round round' column column' : ℕ}
    (hcolumn : column < t.width) (hcolumn' : column' < t.width)
    (h : t.hashed round column = t.hashed round' column') : round = round' ∧ column = column' := by
  have hindex : t.width * round + column = t.width * round' + column' :=
    toUTF8_seed_injective t.name h
  have hdiv : ∀ r c, c < t.width → (t.width * r + c) / t.width = r := fun r c hc => by
    rw [Nat.mul_add_div (Nat.zero_lt_of_lt hc), Nat.div_eq_of_lt hc, Nat.add_zero]
  have hround : round = round' := by
    rw [← hdiv round column hcolumn, hindex, hdiv round' column' hcolumn']
  subst hround
  exact ⟨rfl, Nat.add_left_cancel hindex⟩

theorem toNat_index {width rounds round column : ℕ} (hsize : rounds * width < 2 ^ 64)
    (hround : round < rounds) (hcolumn : column < width) :
    (UInt64.ofNat width * UInt64.ofNat round + UInt64.ofNat column).toNat =
      width * round + column := by
  have hlt : width * round + column < UInt64.size := by
    calc width * round + column < width * round + width := Nat.add_lt_add_left hcolumn _
      _ = (round + 1) * width := by rw [Nat.succ_mul, Nat.mul_comm]
      _ ≤ rounds * width := Nat.mul_le_mul_right width hround
      _ < UInt64.size := hsize
  rw [← UInt64.ofNat_mul, ← UInt64.ofNat_add, UInt64.toNat_ofNat_of_lt' hlt]

/-- What is wrong with the dimensions of a table, if anything is. -/
inductive Refused (t : ConstantTable) : Invalid → Prop where
  | narrow (width : t.width < 2) : Refused t (.narrow t.width)
  | noRounds (width : 2 ≤ t.width) (rounds : t.rounds = 0) : Refused t .noRounds

theorem generate_eq_error_iff {t : ConstantTable} (digest : Digest) {cause : Invalid} :
    t.generate digest = .error cause ↔ t.Refused cause := by
  constructor
  · intro h
    rw [generate] at h
    split at h
    · rename_i hwidth
      cases h
      exact .narrow hwidth
    · rename_i hwidth
      split at h
      · rename_i hrounds
        cases h
        exact .noRounds (Nat.le_of_not_lt hwidth) hrounds
      · cases h
  · intro h
    cases h with
    | narrow hwidth => rw [generate, if_pos hwidth]
    | noRounds hwidth hrounds => rw [generate, if_neg (Nat.not_lt.2 hwidth), if_pos hrounds]

theorem generate_eq_ok_iff {t : ConstantTable} {digest : Digest} {text : String} :
    t.generate digest = .ok text ↔ 2 ≤ t.width ∧ 1 ≤ t.rounds ∧ t.render digest = text := by
  rw [generate]
  split
  · rename_i hwidth
    exact ⟨nofun, fun h => absurd hwidth (Nat.not_lt.2 h.1)⟩
  rename_i hwidth
  split
  · rename_i hrounds
    exact ⟨nofun, fun h => absurd hrounds (Nat.ne_of_gt h.2.1)⟩
  · rename_i hrounds
    rw [Except.ok.injEq]
    exact ⟨fun h => ⟨Nat.le_of_not_lt hwidth, Nat.pos_of_ne_zero hrounds, h⟩, fun h => h.2.2⟩

/-- Row by row, what is read of a printed table is the canonical values of its entries. -/
theorem flatten_of_read?_generate {t : ConstantTable} {digest : Digest} {text : String}
    {p : Printed} (htext : t.generate digest = .ok text) (hp : read? text = some p) :
    p.rows.flatten = (t.rows digest).flatten.map Felt.toUInt256 := by
  obtain ⟨-, -, rfl⟩ := generate_eq_ok_iff.1 htext
  rw [read?_render, Option.some_inj] at hp
  rw [← hp, List.map_flatten]

theorem run_eq {arguments : List String} {t : ConstantTable}
    (h : (CommandLine.Arguments.empty.read arguments).bind CommandLine.Arguments.table? = some t) :
    CommandLine.run arguments = (t.generate Sha256.digest).mapError .invalid := by
  rw [CommandLine.run, h]

/-- A table of at least two columns and one row is printed, and what is read from its text has the
dimensions of the table and, as entry of a round and a column, the integer of the digest that the
index of the entry gives, modulo the prime. The index stays in a word when the size of the table
does, and no two entries are hashed from the same bytes. The width does not change the constants
that follow each other through the rows. Other dimensions are refused, too few columns before too
few rows. -/
theorem generate_readBack (digest : Digest) :
    (∀ t : ConstantTable, 2 ≤ t.width → 1 ≤ t.rounds → ∃ text rows,
      t.generate digest = .ok text ∧ read? text = some ⟨t.width, t.rounds, rows⟩ ∧
      rows.length = t.rounds ∧ (∀ row ∈ rows, row.length = t.width) ∧
      ∀ round < t.rounds, ∀ column < t.width, ∃ row x,
        rows[round]? = some row ∧ row[column]? = some x ∧ x.toNat < prime ∧
        x.toNat = Bytes.bigEndian (digest (t.hashed round column)).toList % prime ∧
        Felt.ofUInt256 x = t.entry digest round column) ∧
    (∀ (t : ConstantTable) (round column : ℕ),
      Felt.ofBytesBE (digest (t.hashed round column)).toList = .ok (t.entry digest round column)) ∧
    (∀ (s t : ConstantTable) (text text' : String) (p q : Printed),
      s.name = t.name → s.rounds * s.width ≤ t.rounds * t.width →
      s.generate digest = .ok text → t.generate digest = .ok text' →
      read? text = some p → read? text' = some q → p.rows.flatten <+: q.rows.flatten) ∧
    (∀ (t : ConstantTable) (round round' column column' : ℕ),
      column < t.width → column' < t.width → t.hashed round column = t.hashed round' column' →
      round = round' ∧ column = column') ∧
    (∀ t : ConstantTable, t.rounds * t.width < 2 ^ 64 →
      ∀ round < t.rounds, ∀ column < t.width,
        (UInt64.ofNat t.width * UInt64.ofNat round + UInt64.ofNat column).toNat =
          t.width * round + column) ∧
    (∀ (t : ConstantTable) (cause : Invalid),
      t.generate digest = .error cause ↔ t.Refused cause) ∧
    ∀ (arguments : List String) (t : ConstantTable),
      (CommandLine.Arguments.empty.read arguments).bind CommandLine.Arguments.table? = some t →
      (∀ text, CommandLine.run arguments = .ok text ↔ t.generate Sha256.digest = .ok text) ∧
      ∀ cause, CommandLine.run arguments = .error (.invalid cause) ↔ t.Refused cause := by
  refine ⟨?_, fun t => t.entry_eq digest, ?_, ?_, ?_, ?_, ?_⟩
  · intro t hwidth hrounds
    refine ⟨t.render digest, (t.rows digest).map (·.map Felt.toUInt256),
      generate_eq_ok_iff.2 ⟨hwidth, hrounds, rfl⟩, t.read?_render digest, ?_, ?_, ?_⟩
    · rw [List.length_map, length_rows]
    · intro row h
      obtain ⟨row, hrow, rfl⟩ := List.mem_map.1 h
      rw [List.length_map, length_of_mem_rows hrow]
    · intro round hround column hcolumn
      obtain ⟨row, hrow, hentry⟩ := exists_getElem?_map_rows hround hcolumn digest
      exact ⟨row, _, hrow, hentry, Felt.toNat_lt _, t.toNat_entry digest round column,
        Felt.ofUInt256_toUInt256 _⟩
  · intro s t text text' p q hname hsize htext htext' hp hq
    rw [flatten_of_read?_generate htext hp, flatten_of_read?_generate htext' hq]
    exact (isPrefix_flatten_rows hname hsize digest).map _
  · exact fun t _ _ _ _ hcolumn hcolumn' => eq_of_hashed_eq hcolumn hcolumn'
  · exact fun t hsize _ hround _ hcolumn => toNat_index hsize hround hcolumn
  · exact fun t cause => generate_eq_error_iff digest
  · intro arguments t h
    rw [run_eq h]
    refine ⟨fun text => ?_, fun cause => ?_⟩
    · cases t.generate Sha256.digest <;> simp [Except.mapError]
    · rw [← generate_eq_error_iff Sha256.digest]
      cases t.generate Sha256.digest <;> simp [Except.mapError]

end ConstantTable

end FieldSponge
