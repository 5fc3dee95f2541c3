import FieldSponge.Proofs.StoredSponge

/-! Programs that build elements, and the stored words that they write. A program is run once with
elements and once with stored words alone; the words of the second run are those of the elements of
the first, so every word that a program writes is below the prime. -/
namespace FieldSponge
namespace Stored

open Montgomery Hades

/-- What is given to a sponge: an element, or several in turn. Elements are named by their places.
-/
inductive Feed where
  | update (i : Nat)
  | extend (is : List Nat)

namespace Feed

def apply (element : Nat → Felt) (h : Poseidon.Hasher) : Feed → Poseidon.Hasher
  | update i => h.update (element i)
  | extend is => h.extend (is.map element)

def applyWords (word : Nat → UInt256) (h : Hasher) : Feed → Hasher
  | update i => h.update (word i)
  | extend is => h.extend (is.map word)

theorem ofElements_apply (element : Nat → Felt) (h : Poseidon.Hasher) (feed : Feed) :
    Hasher.ofElements (feed.apply element h) =
      feed.applyWords (fun i => (element i).mont) (.ofElements h) := by
  cases feed with
  | update i => exact Hasher.ofElements_update h (element i)
  | extend is =>
    have hx := Hasher.ofElements_extend h (is.map element)
    rw [List.map_map] at hx
    exact hx

theorem ofElements_foldl (element : Nat → Felt) (feeds : List Feed) (h : Poseidon.Hasher) :
    Hasher.ofElements (feeds.foldl (apply element) h) =
      feeds.foldl (applyWords fun i => (element i).mont) (.ofElements h) := by
  induction feeds generalizing h with
  | nil => rfl
  | cons feed feeds ih => rw [List.foldl_cons, List.foldl_cons, ih, ofElements_apply]

end Feed

/-- A constructor or an operation, with all that it reads. Operands are elements built before, named
by their places; there is zero at a place with no element. -/
inductive Instruction where
  | zero
  | one
  | two
  | max
  | signedMax
  | ofBool (b : Bool)
  | ofUInt8 (n : UInt8)
  | ofUInt32 (n : UInt32)
  | ofWord (n : UInt64)
  | ofDoubleWord (n : DoubleWord)
  | ofUInt256 (x : UInt256)
  | ofMontgomery (x : UInt256)
  | ofHex (text : String)
  | ofDecimal (text : String)
  | parse (text : String)
  | ofJson (value : Json)
  | ofBytesLE (bytes : List UInt8)
  | ofBytesBE (bytes : List UInt8)
  | sample (attempts : Nat) (tape : WordTape)
  | add (i j : Nat)
  | sub (i j : Nat)
  | mul (i j : Nat)
  | neg (i : Nat)
  | square (i : Nat)
  | double (i : Nat)
  | sum (is : List Nat)
  | product (is : List Nat)
  | pow (i : Nat) (e : UInt256)
  | powWord (i : Nat) (e : UInt64)
  | powFelt (i j : Nat)
  | inverse (i : Nat)
  | div (i j : Nat)
  | divMod (i j : Nat)
  | sqrt (i : Nat)
  | and (i j : Nat)
  | or (i j : Nat)
  | xor (i j : Nat)
  | shiftLeft (i n : Nat)
  | shiftRight (i n : Nat)
  | permute (is : List Nat)
  | hades {width : Nat} (parameters : Parameters Nat width) (is : Vector Nat width)
  | hashPair (i j : Nat)
  | hashSingle (i : Nat)
  | hashMany (is : List Nat)
  | hasher (feeds : List Feed)

def results {ε α : Type} : Except ε α → List α
  | .ok x => [x]
  | .error _ => []

theorem map_results {ε α β : Type} (f : α → β) (x : Except ε α) :
    (results x).map f = results (x.map f) := by
  cases x <;> rfl

namespace Instruction

def elements (element : Nat → Felt) : Instruction → List Felt
  | zero => [0]
  | one => [1]
  | two => [Felt.two]
  | max => [Felt.max]
  | signedMax => [Felt.signedMax]
  | ofBool b => [Felt.ofBool b]
  | ofUInt8 n => [Felt.ofUInt8 n]
  | ofUInt32 n => [Felt.ofUInt32 n]
  | ofWord n => [Felt.ofWord n]
  | ofDoubleWord n => [Felt.ofDoubleWord n]
  | ofUInt256 x => [Felt.ofUInt256 x]
  | ofMontgomery x => [Felt.ofMontgomery x]
  | ofHex text => results (Felt.ofHex text)
  | ofDecimal text => results (Felt.ofDecimal text)
  | parse text => results (Felt.parse text)
  | ofJson value => results (Felt.ofJson value)
  | ofBytesLE bytes => results (Felt.ofBytesLE bytes)
  | ofBytesBE bytes => results (Felt.ofBytesBE bytes)
  | sample attempts tape => (Felt.sample? attempts tape).toList.map Prod.fst
  | add i j => [element i + element j]
  | sub i j => [element i - element j]
  | mul i j => [element i * element j]
  | neg i => [-element i]
  | square i => [(element i).square]
  | double i => [(element i).double]
  | sum is => [Felt.sum (is.map element)]
  | product is => [Felt.product (is.map element)]
  | pow i e => [element i ^ e]
  | powWord i e => [(element i).powWord e]
  | powFelt i j => [(element i).powFelt (element j)]
  | inverse i => results (element i).inverse
  | div i j => results ((element i).div (element j))
  | divMod i j => (results ((element i).divMod (element j))).flatMap fun (q, r) => [q, r]
  | sqrt i => (element i).sqrt?.toList
  | and i j => [element i &&& element j]
  | or i j => [element i ||| element j]
  | xor i j => [element i ^^^ element j]
  | shiftLeft i n => [element i <<< n]
  | shiftRight i n => [element i >>> n]
  | permute is => (results (Starknet.permuteList (is.map element))).flatten
  | hades p is =>
    (results ((p.map element).hades.permute (is.map element))).flatMap Vector.toList
  | hashPair i j => [Poseidon.hashPair (element i) (element j)]
  | hashSingle i => [Poseidon.hashSingle (element i)]
  | hashMany is => [Poseidon.hashMany (is.map element)]
  | hasher feeds => [(feeds.foldl (Feed.apply element) .empty).finalize]

def words (word : Nat → UInt256) : Instruction → List UInt256
  | zero => [0]
  | one => [radix]
  | two => [⟨0xffffffffffffffc1, 0xffffffffffffffff, 0xffffffffffffffff, 0x07fffffffffffbd0⟩]
  | max => [⟨0x20, 0, 0, 0x220⟩]
  | signedMax => [ofCanonical Felt.half]
  | ofBool b => [if b then radix else 0]
  | ofUInt8 n => [Stored.ofWord n.toUInt64]
  | ofUInt32 n => [Stored.ofWord n.toUInt64]
  | ofWord n => [Stored.ofWord n]
  | ofDoubleWord n => [ofCanonical (.ofDoubleWord n)]
  | ofUInt256 x => [ofCanonical x]
  | ofMontgomery x => [reduce x]
  | ofHex text => results (readHex text.toList)
  | ofDecimal text => results (readDecimal text.toList)
  | parse text => results (Stored.parse text)
  | ofJson value => results (Stored.ofJson value)
  | ofBytesLE bytes => results (Stored.ofBytesLE bytes)
  | ofBytesBE bytes => results (Stored.ofBytesBE bytes)
  | sample attempts tape => (sample? attempts tape).toList
  | add i j => [Montgomery.add (word i) (word j)]
  | sub i j => [Montgomery.sub (word i) (word j)]
  | mul i j => [Montgomery.mul (word i) (word j)]
  | neg i => [Montgomery.neg (word i)]
  | square i => [Stored.square (word i)]
  | double i => [Stored.double (word i)]
  | sum is => [Stored.sum (is.map word)]
  | product is => [Stored.product (is.map word)]
  | pow i e => [Stored.pow (word i) e]
  | powWord i e => [Stored.powWord (word i) e]
  | powFelt i j => [powElement (word i) (word j)]
  | inverse i => results (Stored.inverse (word i))
  | div i j => results (Stored.div (word i) (word j))
  | divMod i j => (results (Stored.divMod (word i) (word j))).flatMap fun (q, r) => [q, r]
  | sqrt i => (sqrt? (word i)).toList
  | and i j => [onCanonical (· &&& ·) (word i) (word j)]
  | or i j => [onCanonical (· ||| ·) (word i) (word j)]
  | xor i j => [onCanonical (· ^^^ ·) (word i) (word j)]
  | shiftLeft i n => [Stored.shiftLeft (word i) n]
  | shiftRight i n => [Stored.shiftRight (word i) n]
  | permute is => (results (permuteList (is.map word))).flatten
  | hades p is => (results ((p.map word).permute (is.map word))).flatMap Vector.toList
  | hashPair i j => [Stored.hashPair (word i) (word j)]
  | hashSingle i => [Stored.hashSingle (word i)]
  | hashMany is => [Stored.hashMany (is.map word)]
  | hasher feeds => [(feeds.foldl (Feed.applyWords word) .empty).finalize]

theorem map_mont_map (element : Nat → Felt) (is : List Nat) :
    (is.map element).map Felt.mont = is.map fun i => (element i).mont := List.map_map

theorem map_mont_elements (element : Nat → Felt) (i : Instruction) :
    (i.elements element).map Felt.mont = i.words fun i => (element i).mont := by
  cases i with
  | zero | one | two | max | signedMax => rfl
  | ofBool b => cases b <;> rfl
  | ofUInt8 n => rw [elements, words, List.map_singleton, Felt.ofUInt8, mont_ofWord]
  | ofUInt32 n => rw [elements, words, List.map_singleton, Felt.ofUInt32, mont_ofWord]
  | ofWord n => rw [elements, words, List.map_singleton, mont_ofWord]
  | ofDoubleWord | ofUInt256 | ofMontgomery => rfl
  | ofHex text => rw [elements, words, map_results, Felt.ofHex, map_mont_readHex]
  | ofDecimal text => rw [elements, words, map_results, Felt.ofDecimal, map_mont_readDecimal]
  | parse text => rw [elements, words, map_results, map_mont_parse]
  | ofJson value => rw [elements, words, map_results, map_mont_ofJson]
  | ofBytesLE bytes => rw [elements, words, map_results, map_mont_ofBytesLE]
  | ofBytesBE bytes => rw [elements, words, map_results, map_mont_ofBytesBE]
  | sample attempts tape =>
    rw [elements, words, ← map_mont_sample?]
    cases Felt.sample? attempts tape <;> rfl
  | add i j => rw [elements, words, List.map_singleton, mont_add]
  | sub i j => rw [elements, words, List.map_singleton, mont_sub]
  | mul i j => rw [elements, words, List.map_singleton, mont_mul]
  | neg i => rw [elements, words, List.map_singleton, mont_neg]
  | square i => rw [elements, words, List.map_singleton, mont_square]
  | double i => rw [elements, words, List.map_singleton, mont_double]
  | sum is => rw [elements, words, List.map_singleton, mont_sum, map_mont_map]
  | product is => rw [elements, words, List.map_singleton, mont_product, map_mont_map]
  | pow i e => rw [elements, words, List.map_singleton, mont_pow]
  | powWord i e => rw [elements, words, List.map_singleton, mont_powWord]
  | powFelt i j => rw [elements, words, List.map_singleton, mont_powFelt]
  | inverse i => rw [elements, words, map_results, map_mont_inverse]
  | div i j => rw [elements, words, map_results, map_mont_div]
  | divMod i j =>
    rw [elements, words, ← map_mont_divMod]
    cases (element i).divMod (element j) <;> rfl
  | sqrt i =>
    rw [elements, words, ← map_mont_sqrt?]
    cases (element i).sqrt? <;> rfl
  | and i j => rw [elements, words, List.map_singleton, mont_and]
  | or i j => rw [elements, words, List.map_singleton, mont_or]
  | xor i j => rw [elements, words, List.map_singleton, mont_xor]
  | shiftLeft i n => rw [elements, words, List.map_singleton, mont_shiftLeft]
  | shiftRight i n => rw [elements, words, List.map_singleton, mont_shiftRight]
  | permute is =>
    rw [elements, words, List.map_flatten, map_results, map_mont_permuteList, map_mont_map]
  | hades p is =>
    have hp := Parameters.map_mont_permute (p.map element) (is.map element)
    rw [Parameters.map_map, Vector.map_map] at hp
    rw [elements, words]
    change _ = (results ((p.map fun i => (element i).mont).permute
      (is.map (Felt.mont ∘ element)))).flatMap Vector.toList
    rw [← hp]
    cases (p.map element).hades.permute (is.map element) with
    | error => rfl
    | ok s => simp [results, Except.map, Vector.toList_map]
  | hashPair i j => rw [elements, words, List.map_singleton, mont_hashPair]
  | hashSingle i => rw [elements, words, List.map_singleton, mont_hashSingle]
  | hashMany is => rw [elements, words, List.map_singleton, mont_hashMany, map_mont_map]
  | hasher feeds =>
    rw [elements, words, List.map_singleton, Hasher.mont_finalize, Feed.ofElements_foldl,
      Hasher.ofElements_empty]

end Instruction

/-- Runs a program after the elements `xs`. What an instruction builds comes after all before it. -/
def run (xs : List Felt) : List Instruction → List Felt
  | [] => xs
  | i :: rest => run (xs ++ i.elements (xs.getD · 0)) rest

def runWords (ws : List UInt256) : List Instruction → List UInt256
  | [] => ws
  | i :: rest => runWords (ws ++ i.words (ws.getD · 0)) rest

theorem getD_map_mont (xs : List Felt) :
    ((xs.map Felt.mont).getD · 0) = fun i => (xs.getD i 0).mont := by
  funext i
  rw [List.getD_eq_getElem?_getD, List.getD_eq_getElem?_getD, List.getElem?_map]
  cases xs[i]? <;> rfl

theorem map_mont_step (xs : List Felt) (i : Instruction) :
    (xs ++ i.elements (xs.getD · 0)).map Felt.mont =
      xs.map Felt.mont ++ i.words ((xs.map Felt.mont).getD · 0) := by
  rw [List.map_append, Instruction.map_mont_elements, getD_map_mont]

theorem map_mont_run (xs : List Felt) (program : List Instruction) :
    (run xs program).map Felt.mont = runWords (xs.map Felt.mont) program := by
  induction program generalizing xs with
  | nil => rfl
  | cons i rest ih => rw [run, runWords, ih, map_mont_step]

theorem exists_mont_of_mem {program : List Instruction} {w : UInt256}
    (h : w ∈ runWords [] program) : ∃ a ∈ run [] program, a.mont = w := by
  have hrun := map_mont_run [] program
  rw [List.map_nil] at hrun
  rw [← hrun] at h
  exact List.mem_map.1 h

/-- Every word that a program writes is below the prime. Two of them are equal when their canonical
values are, which is when they compare equal, and the tests for zero and one are those of the
canonical value. -/
theorem runWords_reduced (program program' : List Instruction) :
    runWords [] program = (run [] program).map Felt.mont ∧
    (∀ w ∈ runWords [] program, w.toNat < prime) ∧
    (∀ w ∈ runWords [] program, ∀ w' ∈ runWords [] program',
      (w = w' ↔ toCanonical w = toCanonical w') ∧
      (w = w' ↔ compare (toCanonical w) (toCanonical w') = .eq)) ∧
    ∀ w ∈ runWords [] program,
      (w.isZero = true ↔ (toCanonical w).toNat = 0) ∧
      (isOne w = true ↔ (toCanonical w).toNat = 1) := by
  refine ⟨(map_mont_run [] program).symm, ?_, ?_, ?_⟩
  · intro w hw
    obtain ⟨a, -, rfl⟩ := exists_mont_of_mem hw
    exact a.mont_lt
  · intro w hw w' hw'
    obtain ⟨a, -, rfl⟩ := exists_mont_of_mem hw
    obtain ⟨b, -, rfl⟩ := exists_mont_of_mem hw'
    have heq : a.mont = b.mont ↔ toCanonical a.mont = toCanonical b.mont :=
      Felt.mont_inj.trans Felt.toUInt256_inj.symm
    refine ⟨heq, ?_⟩
    rw [UInt256.compare_eq_compare_toNat, Nat.compare_eq_eq, UInt256.toNat_inj, heq]
  · intro w hw
    obtain ⟨a, -, rfl⟩ := exists_mont_of_mem hw
    rw [isZero_mont, isOne_mont, Felt.isZero_iff, Felt.isOne_iff, toCanonical_mont,
      Felt.toNat_toUInt256, ← Felt.toNat_inj, ← Felt.toNat_inj, Felt.toNat_zero, Felt.toNat_one]
    exact ⟨Iff.rfl, Iff.rfl⟩

/-- A word left at the prime would be another zero. -/
example : modulus ≠ 0 ∧ toCanonical modulus = toCanonical 0 := by decide +kernel

end Stored

end FieldSponge
