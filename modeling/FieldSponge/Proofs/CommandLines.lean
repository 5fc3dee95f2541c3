import FieldSponge.CommandLine
import FieldSponge.Hades.Starknet

/-! What a command line asks for. A setting is read with its value from one argument or from two, in
any order and among flags for more messages. A setting that is given twice is refused, and those
that are not given keep their defaults. -/
namespace FieldSponge
namespace CommandLine

namespace Arguments

def get? (a : Arguments) : Setting → Option String
  | .name => a.name?
  | .rounds => a.rounds?
  | .width => a.width?

@[simp] theorem get?_empty (s : Setting) : empty.get? s = none := by
  cases s <;> rfl

theorem set_of_isSome {a : Arguments} {s : Setting} (value : String) (h : (a.get? s).isSome) :
    a.set value s = none := by
  cases s <;> exact if_pos h

theorem exists_set_eq_some {a : Arguments} {s : Setting} (value : String) (h : a.get? s = none) :
    ∃ b, a.set value s = some b ∧ ∀ t, b.get? t = if t = s then some value else a.get? t := by
  have hunset : ¬ (a.get? s).isSome := by rw [h]; decide
  cases s with
  | name => exact ⟨_, if_neg hunset, by rintro ⟨⟩ <;> rfl⟩
  | rounds => exact ⟨_, if_neg hunset, by rintro ⟨⟩ <;> rfl⟩
  | width => exact ⟨_, if_neg hunset, by rintro ⟨⟩ <;> rfl⟩

end Arguments

/-- A flag for more messages, or a setting with its value in one argument or in two. -/
inductive Part where
  | verbose (flag : String)
  | joined (s : Setting) (value : String)
  | apart (s : Setting) (value : String)

namespace Part

def arguments : Part → List String
  | verbose flag => [flag]
  | joined s value => [s.flag ++ "=" ++ value]
  | apart s value => [s.flag, value]

/-- Whether the part can be told from its arguments. -/
def IsPlain : Part → Prop
  | verbose flag => 0 < Arguments.verbosityOf flag
  | joined _ value => value.toList.head? ≠ some '='
  | apart _ value => Arguments.isValue value = true

def given? : Part → Option (Setting × String)
  | verbose _ => none
  | joined s value => some (s, value)
  | apart s value => some (s, value)

def apply (a : Arguments) : Part → Option Arguments
  | verbose flag => some { a with verbosity := a.verbosity + Arguments.verbosityOf flag }
  | joined s value => a.set value s
  | apart s value => a.set value s

end Part

theorem verbosityOf_flag (s : Setting) : Arguments.verbosityOf s.flag = 0 := by
  cases s <;> decide

theorem verbosityOf_joined (s : Setting) (value : String) :
    Arguments.verbosityOf (s.flag ++ "=" ++ value) = 0 := by
  have hlist : (s.flag ++ "=" ++ value).toList = s.flag.toList ++ '=' :: value.toList := by simp
  have hne : s.flag ++ "=" ++ value ≠ "--verbose" := by
    rw [Ne, ← String.toList_inj, hlist]
    cases s <;> simp [Setting.flag]
  rw [Arguments.verbosityOf, if_neg hne, hlist]
  cases s <;> simp [Setting.flag]

theorem findSome?_joined {value : String} (h : value.toList.head? ≠ some '=') (s : Setting) :
    (Setting.all.findSome? fun t => (t.joined? (s.flag ++ "=" ++ value)).map (t, ·)) =
      some (s, value) := by
  have hdrop : value.toList.dropWhile (· == '=') = value.toList := by
    cases hv : value.toList with
    | nil => rfl
    | cons c cs => exact List.dropWhile_cons_of_neg (by simpa [hv] using h)
  cases s <;>
    simp [Setting.all, Setting.joined?, Setting.flag, hdrop]

theorem findSome?_flag (s : Setting) :
    (Setting.all.findSome? fun t => (t.joined? s.flag).map (t, ·)) = none := by
  cases s <;> decide

theorem find?_flag (s : Setting) : (Setting.all.find? fun t => t.flag = s.flag) = some s := by
  cases s <;> decide

/-- A part is read off the front of a command line. -/
theorem read_part {p : Part} (h : p.IsPlain) (a : Arguments) (rest : List String) :
    a.read (p.arguments ++ rest) = (p.apply a).bind fun b => b.read rest := by
  cases p with
  | verbose flag =>
    rw [Arguments.read.eq_def]
    exact if_pos h
  | joined s value =>
    rw [Arguments.read.eq_def]
    simp only [Part.arguments, List.singleton_append, verbosityOf_joined, findSome?_joined h,
      Nat.lt_irrefl, if_false, Part.apply]
  | apart s value =>
    rw [Arguments.read.eq_def]
    simp only [Part.arguments, List.cons_append, List.nil_append, verbosityOf_flag,
      findSome?_flag, find?_flag, Nat.lt_irrefl, if_false, Part.apply]
    exact if_pos h

theorem read_parts {parts : List Part} (h : ∀ p ∈ parts, p.IsPlain) (a : Arguments) :
    a.read (parts.flatMap Part.arguments) = parts.foldlM Part.apply a := by
  induction parts generalizing a with
  | nil => rfl
  | cons p parts ih =>
    rw [List.flatMap_cons, read_part (h p List.mem_cons_self), List.foldlM_cons]
    exact bind_congr fun b => ih (fun q hq => h q (List.mem_cons_of_mem p hq)) b

def given (parts : List Part) : List (Setting × String) := parts.filterMap Part.given?

theorem exists_apply_of_given?_eq_none {p : Part} (h : p.given? = none) (a : Arguments) :
    ∃ b, p.apply a = some b ∧ ∀ s, b.get? s = a.get? s := by
  cases p with
  | verbose flag => exact ⟨_, rfl, by rintro ⟨⟩ <;> rfl⟩
  | joined s value => exact nomatch h
  | apart s value => exact nomatch h

theorem apply_of_given?_eq_some {p : Part} {s : Setting} {value : String}
    (h : p.given? = some (s, value)) (a : Arguments) : p.apply a = a.set value s := by
  cases p <;> cases h <;> rfl

theorem exists_foldlM_apply {parts : List Part} (hnodup : ((given parts).map Prod.fst).Nodup)
    {a : Arguments} (ha : ∀ g ∈ given parts, a.get? g.1 = none) :
    ∃ b, parts.foldlM Part.apply a = some b ∧
      ∀ s, b.get? s = ((given parts).lookup s).or (a.get? s) := by
  induction parts generalizing a with
  | nil => exact ⟨a, rfl, fun s => rfl⟩
  | cons p parts ih =>
    cases hp : p.given? with
    | none =>
      have hgiven : given (p :: parts) = given parts := List.filterMap_cons_none hp
      rw [hgiven] at hnodup ha ⊢
      obtain ⟨b, hb, hget⟩ := exists_apply_of_given?_eq_none hp a
      obtain ⟨c, hc, hlookup⟩ := ih hnodup fun g hg => (hget g.1).trans (ha g hg)
      refine ⟨c, ?_, fun s => by rw [hlookup, hget]⟩
      rw [List.foldlM_cons, hb]
      exact hc
    | some g =>
      obtain ⟨s, value⟩ := g
      have hgiven : given (p :: parts) = (s, value) :: given parts := List.filterMap_cons_some hp
      rw [hgiven] at hnodup ha ⊢
      obtain ⟨hs, hnodup⟩ := List.nodup_cons.1 hnodup
      obtain ⟨b, hb, hget⟩ := a.exists_set_eq_some value (ha _ List.mem_cons_self)
      have hrest : ∀ g ∈ given parts, b.get? g.1 = none := by
        intro g hg
        have hne : g.1 ≠ s := fun h => hs (List.mem_map.2 ⟨g, hg, h⟩)
        rw [hget, if_neg hne, ha g (List.mem_cons_of_mem _ hg)]
      obtain ⟨c, hc, hlookup⟩ := ih hnodup hrest
      refine ⟨c, ?_, fun t => ?_⟩
      · rw [List.foldlM_cons, apply_of_given?_eq_some hp, hb]
        exact hc
      · rw [hlookup, hget]
        by_cases ht : t = s
        · subst ht
          have hnone : (given parts).lookup t = none := by
            refine List.lookup_eq_none_iff.2 fun g hg => ?_
            have hne : t ≠ g.1 := fun h => hs (List.mem_map.2 ⟨g, hg, h.symm⟩)
            simpa using hne
          simp [hnone]
        · have hbeq : (t == s) = false := by simpa using ht
          simp [List.lookup_cons, hbeq, ht]

theorem foldlM_apply_eq_none {parts : List Part} {a : Arguments}
    (h : ¬ ((given parts).map Prod.fst).Nodup ∨ ∃ g ∈ given parts, (a.get? g.1).isSome) :
    parts.foldlM Part.apply a = none := by
  induction parts generalizing a with
  | nil => simp [given] at h
  | cons p parts ih =>
    rw [List.foldlM_cons]
    cases hp : p.given? with
    | none =>
      have hgiven : given (p :: parts) = given parts := List.filterMap_cons_none hp
      rw [hgiven] at h
      obtain ⟨b, hb, hget⟩ := exists_apply_of_given?_eq_none hp a
      rw [hb]
      exact ih (by simpa only [hget] using h)
    | some g =>
      obtain ⟨s, value⟩ := g
      have hgiven : given (p :: parts) = (s, value) :: given parts := List.filterMap_cons_some hp
      rw [apply_of_given?_eq_some hp]
      by_cases hs : (a.get? s).isSome
      · rw [Arguments.set_of_isSome value hs]
        rfl
      obtain ⟨b, hb, hget⟩ := a.exists_set_eq_some value (Option.not_isSome_iff_eq_none.1 hs)
      rw [hb]
      refine ih ?_
      by_cases hmem : s ∈ (given parts).map Prod.fst
      · obtain ⟨g, hg, hfst⟩ := List.mem_map.1 hmem
        exact .inr ⟨g, hg, by rw [hget, if_pos hfst, Option.isSome_some]⟩
      rw [hgiven, List.map_cons, List.nodup_cons] at h
      rcases h with hnodup | ⟨g, hg, hsome⟩
      · exact .inl fun hrest => hnodup ⟨hmem, hrest⟩
      · rcases List.mem_cons.1 hg with rfl | hg
        · exact absurd hsome hs
        · refine .inr ⟨g, hg, ?_⟩
          rw [hget]
          split
          · rfl
          · exact hsome

def table? (parts : List Part) : Option ConstantTable :=
  (count? (((given parts).lookup .rounds).getD "91")).bind fun rounds =>
    (count? (((given parts).lookup .width).getD "3")).map fun width =>
      ⟨((given parts).lookup .name).getD "Hades", rounds, width⟩

theorem Arguments.table?_eq (a : Arguments) : a.table? =
    (count? ((a.get? .rounds).getD "91")).bind fun rounds =>
      (count? ((a.get? .width).getD "3")).map fun width =>
        ⟨(a.get? .name).getD "Hades", rounds, width⟩ := by
  simp only [table?, get?]
  cases count? (a.rounds?.getD "91") with
  | none => rfl
  | some rounds => cases count? (a.width?.getD "3") <;> rfl

theorem count?_repr {n : Nat} (h : n < UInt64.size) : count? n.repr = some n := by
  have hdigit : ∀ c ∈ Nat.toDigits 10 n, c.isDigit = true := fun c hc =>
    Nat.isDigit_of_mem_toDigits (by decide) (by decide) hc
  have htext : n.repr.toList = Nat.toDigits 10 n := by
    rw [Nat.repr_eq_ofList_toDigits, String.toList_ofList]
  obtain ⟨c, digits, hcons⟩ := List.exists_cons_of_ne_nil (@Nat.toDigits_ne_nil n 10)
  have hplus : c ≠ '+' := by
    rintro rfl
    exact absurd (hdigit '+' (hcons ▸ List.mem_cons_self)) (by decide)
  have hall : (c :: digits).all Char.isDigit = true := List.all_eq_true.2 (hcons ▸ hdigit)
  have hvalue : Nat.ofDigitChars 10 (c :: digits) 0 = n := by
    rw [← hcons, Nat.ofDigitChars_toDigits (by decide) (by decide)]
  rw [count?, htext, hcons]
  split
  · rename_i rest heq
    exact absurd (List.cons.inj heq).1 hplus
  · simp only [hall, hvalue, List.isEmpty_cons, Bool.not_true, Bool.or_self, Bool.false_eq_true,
      if_false, if_pos h]

theorem lookup_of_mem {settings : List (Setting × String)} (hnodup : (settings.map Prod.fst).Nodup)
    {g : Setting × String} (hg : g ∈ settings) : settings.lookup g.1 = some g.2 := by
  obtain ⟨before, rest, rfl⟩ := List.append_of_mem hg
  refine List.lookup_eq_some_iff.2 ⟨before, rest, rfl, fun p hp => ?_⟩
  have hne : p.1 ≠ g.1 := by
    rw [List.map_append, List.nodup_append] at hnodup
    exact hnodup.2.2 _ (List.mem_map_of_mem hp) _ (by simp)
  simpa using hne.symm

/-- The settings that a command line gives, each at most once, make the table that is printed. -/
theorem run_of_nodup {parts : List Part} (h : ∀ p ∈ parts, p.IsPlain)
    (hnodup : ((given parts).map Prod.fst).Nodup) :
    run (parts.flatMap Part.arguments) = (table? parts).elim (.error .usage) fun t =>
      (t.generate Sha256.digest).mapError .invalid := by
  obtain ⟨a, ha, hget⟩ := exists_foldlM_apply hnodup fun g _ => Arguments.get?_empty g.1
  have htable : a.table? = table? parts := by
    rw [Arguments.table?_eq, table?]
    simp only [hget, Arguments.get?_empty, Option.or_none]
  rw [run, read_parts h, ha, Option.bind_some, htable]
  cases table? parts <;> rfl

theorem run_of_not_nodup {parts : List Part} (h : ∀ p ∈ parts, p.IsPlain)
    (hnodup : ¬ ((given parts).map Prod.fst).Nodup) :
    run (parts.flatMap Part.arguments) = .error .usage := by
  rw [run, read_parts h, foldlM_apply_eq_none (.inl hnodup)]
  rfl

/-- In whatever order and form its name, rounds and width are given, a table is the one printed. -/
theorem run_eq_generate {t : ConstantTable} (hrounds : t.rounds < UInt64.size)
    (hwidth : t.width < UInt64.size) {parts : List Part} (h : ∀ p ∈ parts, p.IsPlain)
    (hgiven : (given parts).Perm
      [(.name, t.name), (.rounds, t.rounds.repr), (.width, t.width.repr)]) :
    run (parts.flatMap Part.arguments) = (t.generate Sha256.digest).mapError .invalid := by
  have hnodup : ((given parts).map Prod.fst).Nodup := by
    rw [(hgiven.map Prod.fst).nodup_iff]
    simp
  have hlookup := fun g hg => lookup_of_mem hnodup (hgiven.mem_iff (a := g).2 hg)
  have hname := hlookup (.name, t.name) (by simp)
  have hrows := hlookup (.rounds, t.rounds.repr) (by simp)
  have hcolumns := hlookup (.width, t.width.repr) (by simp)
  have htable : table? parts = some t := by
    simp only [table?, hname, hrows, hcolumns, Option.getD_some, count?_repr hrounds,
      count?_repr hwidth, Option.bind_some, Option.map_some]
  rw [run_of_nodup h hnodup, htable, Option.elim_some]

/-- The first constant that is printed for no settings is that of the Starknet permutation. -/
example : ConstantTable.constant Sha256.digest "Hades" 0 = Hades.Starknet.constants[0][0] := by
  decide +kernel

end CommandLine

end FieldSponge
