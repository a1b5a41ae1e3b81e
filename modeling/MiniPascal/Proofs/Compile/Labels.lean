import MiniPascal.Proofs.Compile.Emission
import MiniPascal.Proofs.Tree.Mentions
import Mathlib.Data.List.Nodup
import Mathlib.Data.List.Perm.Basic

/-!
# Labels of the assembly

The labels that a node's code defines bear numbers that were given out for that node, each number
at most once for one purpose. Names of procedures and variables stand behind prefixes of their
own. So no label is defined twice in the assembly of a program.
-/

namespace MiniPascal

/-- The label that a line defines. -/
def Line.defined? : Line → Option Label
  | .label place => some place
  | .word place _ => some place
  | .asciiz place _ => some place
  | _ => none

/-- The labels that lines define, in order. -/
def definedLabels (lines : List Line) : List Label :=
  lines.filterMap Line.defined?

@[simp] theorem definedLabels_nil : definedLabels [] = [] := rfl

@[simp] theorem definedLabels_append (first second : List Line) :
    definedLabels (first ++ second) = definedLabels first ++ definedLabels second :=
  List.filterMap_append

/-! ## Numbered labels -/

/-- What numbered labels are for. -/
def purposes : List String :=
  ["false", "done", "else", "endif", "loop", "endloop"]

/-- A purpose is what stands in front of the number. -/
theorem takeWhile_numbered {purpose : String} (known : purpose ∈ purposes) (number : Nat) :
    (Label.numbered purpose number).name.toList.takeWhile (fun character => !character.isDigit) =
      purpose.toList := by
  have digits : (Nat.toDigits 10 number).takeWhile (fun character => !character.isDigit) = [] := by
    cases spelled : Nat.toDigits 10 number with
    | nil => rfl
    | cons first rest =>
        have digit : first.isDigit :=
          Nat.isDigit_of_mem_toDigits (by decide) (by decide) (spelled ▸ List.mem_cons_self)
        simp [digit]
  have letters : ∀ purpose ∈ purposes, purpose.toList.all fun character => !character.isDigit := by
    decide
  rw [Label.numbered, String.toList_append, Nat.toList_repr,
    List.takeWhile_append_of_pos (List.all_eq_true.mp (letters purpose known)), digits,
    List.append_nil]

/-- A numbered label shows its purpose and its number. -/
theorem numbered_inj {purpose purpose' : String} {number number' : Nat}
    (known : purpose ∈ purposes) (known' : purpose' ∈ purposes)
    (equal : Label.numbered purpose number = Label.numbered purpose' number') :
    purpose = purpose' ∧ number = number' := by
  have samePurpose : purpose = purpose' := by
    apply String.toList_inj.mp
    rw [← takeWhile_numbered known number, equal, takeWhile_numbered known' number']
  subst samePurpose
  have sameText : purpose ++ Nat.repr number = purpose ++ Nat.repr number' :=
    congrArg Label.name equal
  have sameDigits := congrArg String.toList sameText
  rw [String.toList_append, String.toList_append, List.append_cancel_left_eq, Nat.toList_repr,
    Nat.toList_repr] at sameDigits
  refine ⟨rfl, ?_⟩
  rw [← Nat.ofDigitChars_ten_toDigits (n := number), sameDigits, Nat.ofDigitChars_ten_toDigits]

/-- Labels that bear numbers above `low` and up to `high`, without repetition. -/
structure Fresh (low high : Nat) (labels : List Label) : Prop where
  nodup : labels.Nodup
  numbered : ∀ label ∈ labels, ∃ purpose ∈ purposes, ∃ number,
    label = .numbered purpose number ∧ low < number ∧ number ≤ high

namespace Fresh

variable {low middle high : Nat} {first second labels : List Label}

theorem nil : Fresh low low [] where
  nodup := List.nodup_nil
  numbered := by simp

theorem perm (fresh : Fresh low high first) (same : first.Perm second) :
    Fresh low high second where
  nodup := same.nodup_iff.mp fresh.nodup
  numbered label member := fresh.numbered label (same.mem_iff.mpr member)

/-- Numbers of one range do not occur in the other. -/
theorem append (fresh : Fresh low middle first) (fresh' : Fresh middle high second)
    (ordered : low ≤ middle) (ordered' : middle ≤ high) :
    Fresh low high (first ++ second) where
  nodup := by
    refine List.nodup_append.mpr ⟨fresh.nodup, fresh'.nodup, ?_⟩
    rintro label member other member' rfl
    obtain ⟨purpose, known, number, equal, _, below⟩ := fresh.numbered _ member
    obtain ⟨purpose', known', number', equal', above, _⟩ := fresh'.numbered _ member'
    have same := numbered_inj known known' (equal.symm.trans equal')
    omega
  numbered label member := by
    rcases List.mem_append.mp member with member | member
    · obtain ⟨purpose, known, number, equal, above, below⟩ := fresh.numbered _ member
      exact ⟨purpose, known, number, equal, above, by omega⟩
    · obtain ⟨purpose, known, number, equal, above, below⟩ := fresh'.numbered _ member
      exact ⟨purpose, known, number, equal, by omega, below⟩

/-- Two labels of one number for different purposes. -/
theorem pair (purpose purpose' : String) (known : purpose ∈ purposes)
    (known' : purpose' ∈ purposes) (different : purpose ≠ purpose') :
    Fresh low (low + 1) [.numbered purpose (low + 1), .numbered purpose' (low + 1)] where
  nodup := by
    have distinct : Label.numbered purpose (low + 1) ≠ .numbered purpose' (low + 1) :=
      fun equal => different (numbered_inj known known' equal).1
    simp [distinct]
  numbered label member := by
    rcases List.mem_pair.mp member with rfl | rfl
    · exact ⟨purpose, known, _, rfl, by omega, by omega⟩
    · exact ⟨purpose', known', _, rfl, by omega, by omega⟩

/-- A node puts two labels of its own number among those of its parts. -/
theorem enclose (purpose purpose' : String) (known : purpose ∈ purposes)
    (known' : purpose' ∈ purposes) (different : purpose ≠ purpose')
    (parts : Fresh (low + 1) high first) (ordered : low + 1 ≤ high)
    (same : ([Label.numbered purpose (low + 1), .numbered purpose' (low + 1)] ++ first).Perm
      second) : Fresh low high second := by
  have own : Fresh low (low + 1) _ := pair purpose purpose' known known' different
  exact (own.append parts (by omega) ordered).perm same

end Fresh

namespace Code

/-- The labels that marked code defines. -/
def placed (code : List CodeLine) : List Label :=
  definedLabels (lines code)

variable {procedures : List Procedure} {frame : Option Frame}
variable {left right test thenBranch elseBranch body : List CodeLine}

@[simp] theorem placed_nil : placed [] = [] := rfl

@[simp] theorem placed_append (first second : List CodeLine) :
    placed (first ++ second) = placed first ++ placed second := by
  simp [placed]

@[simp] theorem placed_instr (instruction : Instr) (rest : List CodeLine) :
    placed (instr instruction :: rest) = placed rest := rfl

@[simp] theorem placed_label (place : Label) (rest : List CodeLine) :
    placed (label place :: rest) = place :: placed rest := rfl

@[simp] theorem placed_push (register : Register) : placed (push register) = [] := rfl

@[simp] theorem placed_pop (register : Register) : placed (pop register) = [] := rfl

@[simp] theorem placed_discard (count : Nat) : placed (discard count) = [] := by
  induction count with
  | zero => rfl
  | succ count ih => simp [discard, ih]

@[simp] theorem placed_access (word : Nat → Register → Instr) (name : String) :
    placed (access word frame name) = [] := by
  unfold access
  split <;> rfl

@[simp] theorem placed_load (name : String) : placed (load frame name) = [] :=
  placed_access _ name

@[simp] theorem placed_store (name : String) : placed (store frame name) = [] :=
  placed_access _ name

@[simp] theorem placed_operate (operator : Operator) : placed (operate operator) = [] := by
  cases operator <;> rfl

@[simp] theorem placed_operands :
    placed (operands left right) = placed left ++ placed right := by
  simp [operands]

@[simp] theorem placed_compare (relation : Comparison) (otherwise : Label) :
    placed (compare relation left right otherwise) = placed left ++ placed right := by
  simp [compare]

@[simp] theorem placed_truth (number : Nat) :
    placed (truth number test) =
      placed test ++ [.numbered "false" number, .numbered "done" number] := by
  simp [truth]

@[simp] theorem placed_call (name : String) (params : Nat) :
    placed (call name params body) = placed body := by
  simp [call]

@[simp] theorem placed_service (number : Int32) : placed (service number) = [] := rfl

@[simp] theorem placed_writeLine : placed writeLine = [] := rfl

@[simp] theorem placed_clearLocals (count : Nat) : placed (clearLocals count) = [] := by
  induction count with
  | zero => rfl
  | succ count ih => simp [clearLocals, ih]

@[simp] theorem placed_copyResult (procedure : Procedure) :
    placed (copyResult procedure) = [] := by
  unfold copyResult
  split
  · rw [placed_append, placed_load]
    rfl
  · rfl

mutual

theorem fresh_expression (tree : Expr) (frame : Option Frame) (labels : Nat) :
    Fresh labels (labels + tree.labelCount)
      (placed (expression procedures frame labels tree)) := by
  cases tree with
  | num value => exact Fresh.nil
  | var name =>
      rw [expression, placed_load]
      exact Fresh.nil
  | binary operator left right =>
      simp only [expression, placed_append, placed_operands, placed_operate, List.append_nil,
        Expr.labelCount, ← Nat.add_assoc]
      exact (fresh_expression left frame labels).append (fresh_expression right _ _)
        (by omega) (by omega)
  | compare relation left right =>
      simp only [expression, placed_truth, placed_compare, Expr.labelCount, ← Nat.add_assoc]
      have inner : Fresh (labels + 1) (labels + 1 + left.labelCount + right.labelCount)
          (placed (expression procedures frame (labels + 1) left) ++
            placed (expression procedures (deeper frame) (labels + 1 + left.labelCount) right)) :=
        (fresh_expression left frame _).append (fresh_expression right _ _) (by omega) (by omega)
      exact inner.enclose "false" "done" (by decide) (by decide) (by decide) (by omega)
        List.perm_append_comm
  | call name args =>
      simp only [expression, placed_call, Expr.labelCount]
      exact fresh_arguments args _ _ _

theorem fresh_arguments (args : List Expr) (params : Nat) (frame : Option Frame)
    (labels : Nat) :
    Fresh labels (labels + Expr.labelCountAll args)
      (placed (arguments procedures frame labels params args)) := by
  cases args with
  | nil =>
      rw [arguments]
      exact Fresh.nil
  | cons first rest =>
      cases params with
      | zero =>
          simp only [arguments, placed_append, Expr.labelCountAll, ← Nat.add_assoc]
          exact (fresh_expression first frame labels).append (fresh_arguments rest _ _ _)
            (by omega) (by omega)
      | succ params =>
          simp only [arguments, placed_append, placed_push, List.append_nil, Expr.labelCountAll,
            ← Nat.add_assoc]
          exact (fresh_expression first frame labels).append (fresh_arguments rest _ _ _)
            (by omega) (by omega)

end

theorem fresh_condition (test : Condition) (otherwise : Label) (labels : Nat) :
    Fresh labels (labels + test.labelCount)
      (placed (condition procedures frame labels test otherwise)) := by
  simp only [condition, placed_compare, Condition.labelCount, ← Nat.add_assoc]
  exact (fresh_expression test.left frame labels).append (fresh_expression test.right _ _)
    (by omega) (by omega)

theorem fresh_choose {labels middle high : Nat} (inner : Fresh (labels + 1) middle (placed test))
    (fresh : Fresh middle high (placed thenBranch ++ placed elseBranch))
    (ordered : labels + 1 ≤ middle) (ordered' : middle ≤ high) :
    Fresh labels high (placed (choose (labels + 1) test thenBranch elseBranch)) := by
  refine (inner.append fresh ordered ordered').enclose "else" "endif" (by decide) (by decide)
    (by decide) (by omega) ?_
  rw [List.perm_iff_count]
  intro label
  simp only [choose, placed_append, placed_instr, placed_label, placed_nil, List.count_append,
    List.count_cons, List.count_nil]
  omega

theorem fresh_loop {labels middle high : Nat} (inner : Fresh (labels + 1) middle (placed test))
    (fresh : Fresh middle high (placed body)) (ordered : labels + 1 ≤ middle)
    (ordered' : middle ≤ high) :
    Fresh labels high (placed (loop (labels + 1) test body)) := by
  refine (inner.append fresh ordered ordered').enclose "loop" "endloop" (by decide) (by decide)
    (by decide) (by omega) ?_
  rw [List.perm_iff_count]
  intro label
  simp only [loop, placed_append, placed_instr, placed_label, placed_nil, List.count_append,
    List.count_cons, List.count_nil]
  omega

mutual

theorem fresh_statement (tree : Stmt) (frame : Option Frame) (labels : Nat) :
    Fresh labels (labels + tree.labelCount)
      (placed (statement procedures frame labels tree)) := by
  cases tree with
  | assign target value =>
      simp only [statement, placed_append, placed_store, List.append_nil, Stmt.labelCount]
      exact fresh_expression value frame labels
  | block body => exact fresh_statements body frame labels
  | ifThen test body =>
      simp only [statement, Stmt.labelCount, ← Nat.add_assoc]
      refine fresh_choose (fresh_condition test _ _) ?_ (by omega) (by omega)
      rw [placed_nil, List.append_nil]
      exact fresh_statement body frame _
  | ifElse test thenBranch elseBranch =>
      simp only [statement, Stmt.labelCount, ← Nat.add_assoc]
      exact fresh_choose (fresh_condition test _ _)
        ((fresh_statement thenBranch frame _).append (fresh_statement elseBranch frame _)
          (by omega) (by omega)) (by omega) (by omega)
  | loop test body =>
      simp only [statement, Stmt.labelCount, ← Nat.add_assoc]
      exact fresh_loop (fresh_condition test _ _) (fresh_statement body frame _) (by omega)
        (by omega)
  | read target =>
      simp only [statement, placed_append, placed_service, placed_store, List.append_nil,
        Stmt.labelCount]
      exact Fresh.nil
  | write value =>
      simp only [statement, placed_append, placed_writeLine, List.append_nil, Stmt.labelCount]
      exact fresh_expression value frame labels

theorem fresh_statements (trees : List Stmt) (frame : Option Frame) (labels : Nat) :
    Fresh labels (labels + Stmt.labelCountAll trees)
      (placed (statements procedures frame labels trees)) := by
  cases trees with
  | nil =>
      rw [statements]
      exact Fresh.nil
  | cons first rest =>
      simp only [statements, placed_append, Stmt.labelCountAll, ← Nat.add_assoc]
      exact (fresh_statement first frame labels).append (fresh_statements rest frame _)
        (by omega) (by omega)

end

theorem placed_procedure (labels : Nat) (procedure : Procedure) :
    placed (Code.procedure procedures labels procedure) =
      .procedure procedure.name ::
        placed (statement procedures (some { procedure }) labels procedure.body) := by
  simp [Code.procedure]

/-- The code of procedures defines their names and fresh numbers. -/
theorem placed_bodies (bodies : List Procedure) (labels : Nat) :
    ∃ high inner, labels ≤ high ∧ Fresh labels high inner ∧
      (placed (Code.bodies procedures labels bodies)).Perm
        (bodies.map (fun procedure => .procedure procedure.name) ++ inner) := by
  induction bodies generalizing labels with
  | nil => exact ⟨labels, [], Nat.le_refl _, Fresh.nil, List.Perm.refl _⟩
  | cons first rest ih =>
      obtain ⟨high, inner, ordered, fresh, same⟩ := ih (labels + first.body.labelCount)
      have body : Fresh labels _ (placed (statement procedures _ labels first.body)) :=
        fresh_statement first.body (some { procedure := first }) labels
      refine ⟨high, _, by omega, body.append fresh (by omega) ordered, ?_⟩
      rw [Code.bodies, placed_append, placed_procedure, List.map_cons, List.cons_append,
        List.cons_append]
      refine List.Perm.cons _ ((List.Perm.append_left _ same).trans ?_)
      rw [← List.append_assoc, ← List.append_assoc]
      exact List.Perm.append_right _ List.perm_append_comm

end Code

/-! ## All labels of a program -/

/-- Procedures are registered without a fault exactly when no two have one name. -/
theorem repeated?_eq_none {known procedures : List Procedure} :
    repeated? known procedures = none ↔
      (procedures.map Procedure.name).Nodup ∧
        ∀ procedure ∈ procedures, ∀ earlier ∈ known, earlier.name ≠ procedure.name := by
  induction procedures generalizing known with
  | nil => simp [repeated?]
  | cons first rest ih =>
      rw [repeated?]
      by_cases found : (known.find? (·.name = first.name)).isSome
      · obtain ⟨earlier, member, same⟩ := List.find?_isSome.mp found
        simp only [found, if_true, reduceCtorEq, false_iff, not_and, not_forall]
        intro _
        exact ⟨first, List.mem_cons_self, earlier, member, not_not.mpr (by simpa using same)⟩
      · have unknown : ∀ earlier ∈ known, earlier.name ≠ first.name := by
          intro earlier member same
          exact found (List.find?_isSome.mpr ⟨earlier, member, by simpa using same⟩)
        rw [if_neg found, ih]
        simp only [List.map_cons, List.nodup_cons, List.mem_map, List.forall_mem_cons]
        grind

/-- The first character of a label, which tells the kinds of labels apart. -/
def Label.initial? (label : Label) : Option Char :=
  label.name.toList.head?

@[simp] theorem initial?_global (name : String) : (Label.global name).initial? = some 'v' := by
  simp [Label.initial?, Label.global]

@[simp] theorem initial?_procedure (name : String) :
    (Label.procedure name).initial? = some 'p' := by
  simp [Label.initial?, Label.procedure]

theorem initial?_numbered {purpose : String} (known : purpose ∈ purposes) (number : Nat) :
    (Label.numbered purpose number).initial? ∈ ['f', 'd', 'e', 'l'].map some := by
  have initial : purpose.toList.head? ∈ ['f', 'd', 'e', 'l'].map some := by
    revert purpose
    decide
  have nonempty : purpose.toList ≠ [] := by
    intro empty
    simp [empty] at initial
  rw [Label.initial?, Label.numbered, String.toList_append, List.head?_append_of_ne_nil _ nonempty]
  exact initial

theorem Fresh.initial? {low high : Nat} {labels : List Label} (fresh : Fresh low high labels) :
    ∀ label ∈ labels, label.initial? ∈ ['f', 'd', 'e', 'l'].map some := by
  intro label member
  obtain ⟨purpose, known, number, rfl, _⟩ := fresh.numbered label member
  exact initial?_numbered known number

theorem global_injective : Function.Injective Label.global := by
  intro name name' equal
  have text : "var" ++ name = "var" ++ name' := congrArg Label.name equal
  exact String.append_right_inj _ |>.mp text

theorem procedure_injective : Function.Injective Label.procedure := by
  intro name name' equal
  have text : "proc" ++ name = "proc" ++ name' := congrArg Label.name equal
  exact String.append_right_inj _ |>.mp text

/-- The labels of the data: the line end and a word for each global name. -/
theorem definedLabels_dataLines (program : Program) :
    definedLabels (Generator.dataLines program) =
      .newLine :: program.globalNames.map Label.global := by
  simp [Generator.dataLines, definedLabels, Line.defined?, List.filterMap_cons,
    List.filterMap_map, Function.comp_def]

/-- Labels of different kinds are different. -/
theorem nodup_append_of_initials {first second : List Label} {initials initials' : List Char}
    (nodup : first.Nodup) (nodup' : second.Nodup)
    (inside : ∀ label ∈ first, label.initial? ∈ initials.map some)
    (inside' : ∀ label ∈ second, label.initial? ∈ initials'.map some)
    (disjoint : initials.all (· ∉ initials')) : (first ++ second).Nodup := by
  refine List.nodup_append.mpr ⟨nodup, nodup', ?_⟩
  rintro label member _ member' rfl
  obtain ⟨initial, present, equal⟩ := List.mem_map.mp (inside label member)
  obtain ⟨initial', present', equal'⟩ := List.mem_map.mp (inside' label member')
  have same : initial = initial' := Option.some.inj (equal.trans equal'.symm)
  exact of_decide_eq_true (List.all_eq_true.mp disjoint initial present) (same ▸ present')

theorem mem_initials_append {first second : List Label} {initials initials' : List Char}
    (inside : ∀ label ∈ first, label.initial? ∈ initials.map some)
    (inside' : ∀ label ∈ second, label.initial? ∈ initials'.map some) :
    ∀ label ∈ first ++ second, label.initial? ∈ (initials ++ initials').map some := by
  intro label member
  rw [List.map_append, List.mem_append]
  rcases List.mem_append.mp member with member | member
  · exact Or.inl (inside label member)
  · exact Or.inr (inside' label member)

/-- The code of a program defines its entry, the names of its procedures and fresh numbers. -/
theorem definedLabels_program (program : Program) :
    ∃ high numbered, Fresh 0 high numbered ∧
      (definedLabels (Code.lines (Code.program program))).Perm
        (.main :: (program.procedures.map (fun procedure => .procedure procedure.name) ++
          numbered)) := by
  obtain ⟨high, inner, ordered, fresh, same⟩ :=
    @Code.placed_bodies program.procedures.reverse program.procedures program.body.labelCount
  have body := @Code.fresh_statement program.procedures.reverse program.body none 0
  rw [Nat.zero_add] at body
  refine ⟨high, _, body.append fresh (Nat.zero_le _) ordered, ?_⟩
  change (Code.placed (Code.program program)).Perm _
  simp only [Code.program, Code.placed_append, Code.placed_service, List.append_nil]
  refine List.Perm.cons _ ((List.Perm.append_left _ same).trans ?_)
  rw [← List.append_assoc, ← List.append_assoc]
  exact List.Perm.append_right _ List.perm_append_comm

theorem initial?_of_procedures (procedures : List Procedure) :
    ∀ label ∈ procedures.map fun procedure => Label.procedure procedure.name,
      label.initial? ∈ ['p'].map some := by
  simp

/-- The first characters of the labels in the code of a program. -/
theorem initial?_of_mem_code (program : Program) :
    ∀ label ∈ definedLabels (Code.lines (Code.program program)),
      label.initial? ∈ ['m', 'p', 'f', 'd', 'e', 'l'].map some := by
  obtain ⟨high, numbered, fresh, same⟩ := definedLabels_program program
  have entry : ∀ label ∈ [Label.main], label.initial? ∈ ['m'].map some := by decide
  exact fun label member => mem_initials_append entry
    (mem_initials_append (initial?_of_procedures _) fresh.initial?) label (same.mem_iff.mp member)

/-- The first characters of the labels in the data of a program. -/
theorem initial?_of_mem_data (program : Program) :
    ∀ label ∈ definedLabels (Generator.dataLines program),
      label.initial? ∈ ['n', 'v'].map some := by
  rw [definedLabels_dataLines]
  have lineEnd : ∀ label ∈ [Label.newLine], label.initial? ∈ ['n'].map some := by decide
  have globals : ∀ label ∈ program.globalNames.map Label.global,
      label.initial? ∈ ['v'].map some := by simp
  exact mem_initials_append lineEnd globals

/-- The code of a program defines no label twice if the procedures have different names. -/
theorem nodup_code {program : Program} (distinct : (program.procedures.map Procedure.name).Nodup) :
    (definedLabels (Code.lines (Code.program program))).Nodup := by
  obtain ⟨high, numbered, fresh, same⟩ := definedLabels_program program
  have procedures :
      (program.procedures.map fun procedure => Label.procedure procedure.name).Nodup := by
    have mapped := distinct.map procedure_injective
    rwa [List.map_map] at mapped
  have entry : ∀ label ∈ [Label.main], label.initial? ∈ ['m'].map some := by decide
  have named := nodup_append_of_initials procedures fresh.nodup (initial?_of_procedures _)
    fresh.initial? (by decide)
  refine same.nodup_iff.mpr (nodup_append_of_initials (List.nodup_singleton _) named entry
    (mem_initials_append (initial?_of_procedures _) fresh.initial?) (by decide))

theorem nodup_data (program : Program) :
    (definedLabels (Generator.dataLines program)).Nodup := by
  have globals : (program.globalNames.map Label.global).Nodup :=
    (nodup_eraseDups _).map global_injective
  have lineEnd : ∀ label ∈ [Label.newLine], label.initial? ∈ ['n'].map some := by decide
  have fromGlobals : ∀ label ∈ program.globalNames.map Label.global,
      label.initial? ∈ ['v'].map some := by simp
  rw [definedLabels_dataLines]
  exact nodup_append_of_initials (List.nodup_singleton _) globals lineEnd fromGlobals (by decide)

/-- No label is defined twice in the data and the code of a program whose procedures have
different names. -/
theorem nodup_definedLabels {program : Program}
    (distinct : (program.procedures.map Procedure.name).Nodup) :
    (definedLabels (linesOf program)).Nodup := by
  rw [linesOf, definedLabels_append]
  exact nodup_append_of_initials (nodup_data program) (nodup_code distinct)
    (initial?_of_mem_data program) (initial?_of_mem_code program) (by decide)

/-- A program that can be compiled defines no label twice. -/
theorem nodup_of_fault {program : Program} (fault : program.fault? = none) :
    (definedLabels (linesOf program)).Nodup := by
  rw [Program.fault?, Option.or_eq_none_iff] at fault
  exact nodup_definedLabels (repeated?_eq_none.1 fault.1).1

/-- The words of the data are those of the global names. -/
theorem mem_globalNames_of_word {program : Program} {name : String} {value : Int32}
    (word : .word (.global name) value ∈ linesOf program) : name ∈ program.globalNames := by
  have defined : Label.global name ∈ definedLabels (linesOf program) :=
    List.mem_filterMap.mpr ⟨_, word, rfl⟩
  rw [linesOf, definedLabels_append, List.mem_append] at defined
  rcases defined with data | code
  · rw [definedLabels_dataLines, List.mem_cons] at data
    rcases data with lineEnd | global
    · have initial := congrArg Label.initial? lineEnd
      rw [initial?_global] at initial
      cases initial
    · obtain ⟨other, listed, same⟩ := List.mem_map.mp global
      exact global_injective same ▸ listed
  · have initial := initial?_of_mem_code program _ code
    rw [initial?_global] at initial
    exact absurd initial (by decide)

end MiniPascal
