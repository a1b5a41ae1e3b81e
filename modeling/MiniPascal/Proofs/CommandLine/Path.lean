import MiniPascal.CommandLine.Path

/-!
# Where the assembly of a source goes

A path is read as names between slashes, and a name as a stem and an extension around its last full
stop. `Default` says by these readings, and without taking a path apart, where the assembly of a
source goes if nothing else is said, and exactly one path satisfies it.
-/

namespace MiniPascal.CommandLine.Path

/-- A path consists of names between slashes. -/
def Joins (path : String) (names : List String) : Prop :=
  path = "/".intercalate names ∧ ∀ name ∈ names, '/' ∉ name.toList

/-- The name that a path ends with. Behind it stands nothing that leads elsewhere. -/
def LastName (path name : String) : Prop :=
  name ∉ ["", ".", ".."] ∧ ∃ front back, Joins path (front ++ name :: back) ∧
    ∀ other ∈ back, other = "" ∨ other = "."

/-- The part of a name in front of its last full stop. If nothing stands there, it is the whole
name. -/
def Stem (name stem : String) : Prop :=
  (stem ≠ "" ∧ ∃ extension, name = stem ++ "." ++ extension ∧ '.' ∉ extension.toList) ∨
    (stem = name ∧ ∀ front extension, name = front ++ "." ++ extension → front = "")

/-- Where the assembly of a source goes if nothing else is said. -/
inductive Default : String → String → Prop where
  /-- The stem of the last name may have an extension, too: `asm` takes its place. -/
  | named {source name stem shorter : String} : LastName source name → Stem name stem →
      stem ∉ [".", ".."] → Stem stem shorter → Default source (shorter ++ ".asm")
  /-- A stem that is no name takes no extension. -/
  | dots {source name stem : String} : LastName source name → Stem name stem →
      stem ∈ [".", ".."] → Default source stem
  | unnamed {source : String} : (∀ name, ¬ LastName source name) → Default source ""

variable {path source target name stem : String}

/-! ### The last name -/

/-- The pieces between separators do not hold the separator. -/
theorem notMem_of_mem_splitOn (letters : List Char) :
    ∀ piece ∈ letters.splitOn '/', '/' ∉ piece := by
  induction letters with
  | nil => simp
  | cons letter rest ih =>
      rw [List.splitOn_cons_eq_if_modifyHead]
      split
      · simpa using ih
      · next different =>
          cases pieces : rest.splitOn '/' with
          | nil => simp
          | cons first others =>
              simp only [pieces, List.modifyHead_cons, List.mem_cons, forall_eq_or_imp] at ih ⊢
              refine ⟨?_, ih.2⟩
              rintro (same | inFirst)
              · exact different (by simp [← same])
              · exact ih.1 inFirst

theorem joins_parts (path : String) : Joins path (parts path) := by
  constructor
  · rw [← String.toList_inj, String.toList_intercalate, parts, List.map_map]
    simp [Function.comp_def, List.intercalate_splitOn]
  · intro name member
    rw [parts, List.mem_map] at member
    obtain ⟨piece, member, rfl⟩ := member
    rw [String.toList_ofList]
    exact notMem_of_mem_splitOn _ piece member

theorem parts_eq_of_joins {names : List String} (joins : Joins path names)
    (nonempty : names ≠ []) : parts path = names := by
  obtain ⟨rfl, separate⟩ := joins
  have split : (['/'].intercalate (names.map String.toList)).splitOn '/' =
      names.map String.toList :=
    List.splitOn_intercalate '/' (by simpa using separate) (by simpa using nonempty)
  rw [parts, String.toList_intercalate]
  simpa [Function.comp_def] using congrArg (List.map String.ofList) split

/-- The last of the names that lead elsewhere. -/
theorem getLast?_eq_some :
    ((parts path).filter fun part => part ≠ "" && part ≠ ".").getLast? = some name ↔
      (name ≠ "" ∧ name ≠ ".") ∧ ∃ front back, Joins path (front ++ name :: back) ∧
        ∀ other ∈ back, other = "" ∨ other = "." := by
  rw [List.getLast?_filter, List.find?_eq_some_iff_append]
  simp only [Bool.and_eq_true, decide_eq_true_eq, Bool.not_eq_true', Bool.and_eq_false_iff,
    decide_eq_false_iff_not, ne_eq, Decidable.not_not]
  refine and_congr_right fun _ => ⟨?_, ?_⟩
  · rintro ⟨back, front, reversed, idle⟩
    refine ⟨front.reverse, back.reverse, ?_, by simpa using idle⟩
    have split : parts path = front.reverse ++ name :: back.reverse := by
      simpa using congrArg List.reverse reversed
    rw [← split]
    exact joins_parts path
  · rintro ⟨front, back, joins, idle⟩
    refine ⟨back.reverse, front.reverse, ?_, by simpa using idle⟩
    rw [parts_eq_of_joins joins (by simp)]
    simp

theorem fileName?_eq_some : fileName? path = some name ↔ LastName path name := by
  have last : fileName? path = some name ↔ name ≠ ".." ∧
      ((parts path).filter fun part => part ≠ "" && part ≠ ".").getLast? = some name := by
    rw [fileName?]
    split
    · next up =>
        rw [up]
        simp only [reduceCtorEq, Option.some.injEq, false_iff, not_and]
        exact fun proper same => proper same.symm
    · next notUp =>
        refine ⟨fun found => ⟨?_, found⟩, fun found => found.2⟩
        rintro rfl
        exact notUp found
  rw [last, getLast?_eq_some, LastName, ← and_assoc]
  refine and_congr_left fun _ => ?_
  simp only [List.mem_cons, List.not_mem_nil, or_false, not_or]
  exact and_comm.trans and_assoc

/-- A name without slashes is its own last name, if it is a proper one. -/
theorem fileName?_of_slash_notMem (separate : '/' ∉ name.toList) :
    fileName? name = if name ∈ ["", ".", ".."] then none else some name := by
  have joins : Joins name [name] := ⟨by simp, by simpa using separate⟩
  split
  · next improper =>
      rw [fileName?, parts_eq_of_joins joins (by simp)]
      simp only [List.mem_cons, List.not_mem_nil, or_false] at improper
      rcases improper with rfl | rfl | rfl <;> rfl
  · next proper => exact fileName?_eq_some.2 ⟨proper, [], [], joins, by simp⟩

/-! ### The stem -/

theorem toList_reverse_append (front extension : String) :
    (front ++ "." ++ extension).toList.reverse =
      extension.toList.reverse ++ '.' :: front.toList.reverse := by
  simp

theorem splitExtension_append {extension : String} (nonempty : stem ≠ "")
    (last : '.' ∉ extension.toList) : (splitExtension (stem ++ "." ++ extension)).1 = stem := by
  have inExtension : ∀ letter ∈ extension.toList.reverse, decide (letter ≠ '.') = true := by
    intro letter member
    rw [List.mem_reverse] at member
    rw [decide_eq_true_eq]
    rintro rfl
    exact last member
  simp only [splitExtension, toList_reverse_append]
  rw [List.dropWhile_append_of_pos inExtension, List.dropWhile_cons_of_neg (by simp)]
  cases letters : stem.toList.reverse with
  | nil => simp_all
  | cons letter rest =>
      dsimp only
      rw [← letters, List.reverse_reverse, String.ofList_toList]

/-- If no letter stands in front of the last full stop of a name, none stands in front of any. -/
theorem eq_empty_of_dropWhile
    (short : (name.toList.reverse.dropWhile (· ≠ '.')).length ≤ 1) {front extension : String}
    (split : name = front ++ "." ++ extension) : front = "" := by
  rw [split, toList_reverse_append, List.dropWhile_append] at short
  have shorter : front.toList.length = 0 := by
    split at short
    · simpa using short
    · simp only [List.length_append, List.length_cons, List.length_reverse] at short
      omega
  simpa using shorter

theorem stem_splitExtension (name : String) : Stem name (splitExtension name).1 := by
  have whole := @List.takeWhile_append_dropWhile _ (· ≠ '.') name.toList.reverse
  have stop := List.head?_dropWhile_not (· ≠ '.') name.toList.reverse
  rw [splitExtension]
  split
  · next absent =>
      exact .inr ⟨rfl, fun _ _ => eq_empty_of_dropWhile (by rw [absent]; decide)⟩
  · next first =>
      exact .inr ⟨rfl, fun _ _ => eq_empty_of_dropWhile (by rw [first]; exact Nat.le_refl 1)⟩
  · next letter stem notFirst found =>
      rw [found] at whole stop
      obtain rfl : letter = '.' := by simpa using stop
      refine .inl ⟨?_, String.ofList (name.toList.reverse.takeWhile (· ≠ '.')).reverse, ?_, ?_⟩
      · simpa using notFirst
      · rw [← String.toList_inj, ← List.reverse_inj, toList_reverse_append]
        simpa using whole.symm
      · rw [String.toList_ofList, List.mem_reverse]
        intro member
        simpa using List.all_eq_true.1 List.all_takeWhile _ member

theorem splitExtension_eq : (splitExtension name).1 = stem ↔ Stem name stem := by
  constructor
  · rintro rfl
    exact stem_splitExtension name
  · rintro (⟨nonempty, extension, rfl, last⟩ | ⟨rfl, alone⟩)
    · exact splitExtension_append nonempty last
    · rcases stem_splitExtension stem with ⟨nonempty, extension, split, -⟩ | ⟨same, -⟩
      · exact absurd (alone _ _ split) nonempty
      · exact same

/-! ### The path of the assembly -/

theorem stem?_eq_some : stem? path = some stem ↔ ∃ name, LastName path name ∧ Stem name stem := by
  simp only [stem?, Option.map_eq_some_iff, fileName?_eq_some, splitExtension_eq]

theorem LastName.slash_notMem (last : LastName path name) : '/' ∉ name.toList := by
  obtain ⟨-, front, back, joins, -⟩ := last
  exact joins.2 name (by simp)

theorem Stem.slash_notMem (cut : Stem name stem) (separate : '/' ∉ name.toList) :
    '/' ∉ stem.toList := by
  rcases cut with ⟨-, extension, rfl, -⟩ | ⟨rfl, -⟩
  · intro member
    exact separate (by simp [member])
  · exact separate

/-- The stem of a proper name is not empty. -/
theorem Stem.ne_empty (cut : Stem name stem) (proper : name ≠ "") : stem ≠ "" := by
  rcases cut with ⟨nonempty, -⟩ | ⟨rfl, -⟩
  · exact nonempty
  · exact proper

theorem withExtension_eq {extension : String} (separate : '/' ∉ name.toList) :
    withExtension name extension =
      if name ∈ ["", ".", ".."] then name
      else (splitExtension name).1 ++ "." ++ extension := by
  rw [withExtension, stem?, fileName?_of_slash_notMem separate]
  by_cases improper : name ∈ ["", ".", ".."]
  · simp only [if_pos improper, Option.map_none]
  · simp only [if_neg improper, Option.map_some]

theorem assembly_eq (last : LastName source name) (cut : Stem name stem) :
    assembly source =
      if stem ∈ [".", ".."] then stem else (splitExtension stem).1 ++ ".asm" := by
  have named : stem ≠ "" := cut.ne_empty fun empty => last.1 (by simp [empty])
  rw [assembly, stem?_eq_some.2 ⟨name, last, cut⟩, Option.getD_some,
    withExtension_eq (cut.slash_notMem last.slash_notMem), String.append_assoc]
  simp only [List.mem_cons, named, false_or]
  rfl

theorem eq_assembly_of_default (goes : Default source target) : target = assembly source := by
  cases goes with
  | named last cut proper cut' =>
      rw [assembly_eq last cut, if_neg proper, splitExtension_eq.2 cut']
  | dots last cut improper => rw [assembly_eq last cut, if_pos improper]
  | unnamed absent =>
      have unnamed : stem? source = none := by
        rw [Option.eq_none_iff_forall_ne_some]
        intro stem found
        obtain ⟨name, last, -⟩ := stem?_eq_some.1 found
        exact absent name last
      rw [assembly, unnamed]
      rfl

theorem exists_default (source : String) : ∃ target, Default source target := by
  cases found : fileName? source with
  | none =>
      refine ⟨"", .unnamed fun name last => ?_⟩
      rw [← fileName?_eq_some, found] at last
      cases last
  | some name =>
      have last := fileName?_eq_some.1 found
      have cut := stem_splitExtension name
      by_cases improper : (splitExtension name).1 ∈ [".", ".."]
      · exact ⟨_, .dots last cut improper⟩
      · exact ⟨_, .named last cut improper (stem_splitExtension _)⟩

/-- Exactly one path is the default for a source. -/
theorem default_iff : Default source target ↔ target = assembly source := by
  refine ⟨eq_assembly_of_default, ?_⟩
  rintro rfl
  obtain ⟨target, goes⟩ := exists_default source
  rwa [← eq_assembly_of_default goes]

end MiniPascal.CommandLine.Path
