import MiniPascal.Proofs.Compile.Plain
import MiniPascal.Proofs.Compile.Rejection

/-!
# Labels and what refers to them

Whatever an instruction of the assembly refers to is defined: the address that `la` takes stands in
the data, and branches, jumps and calls lead into the code. A jump of a node leads to a label of the
same node, a call to a procedure of the program, and a variable without a slot is a global name.
-/

namespace MiniPascal

/-- What a line refers to is among the labels of the data or those of the code. -/
def Line.Linked (data code : List Label) : Line → Prop
  | .instr (.la _ place) => place ∈ data
  | .instr (.branch _ _ _ place) => place ∈ code
  | .instr (.j place) => place ∈ code
  | .instr (.jal place) => place ∈ code
  | _ => True

/-- The lines in front of the code. -/
def dataSection (lines : List Line) : List Line :=
  lines.takeWhile (· ≠ .directive ".text")

/-- The lines from the start of the code on. -/
def codeSection (lines : List Line) : List Line :=
  lines.dropWhile (· ≠ .directive ".text")

/-- Lines that define no label twice and refer only to labels that they define, each in the section
to which it belongs. -/
structure Closed (lines : List Line) : Prop where
  distinct : (definedLabels lines).Nodup
  linked : ∀ line ∈ lines,
    line.Linked (definedLabels (dataSection lines)) (definedLabels (codeSection lines))

namespace Code

/-- Code of which every line is linked. -/
def Linked (data code : List Label) (lines : List CodeLine) : Prop :=
  ∀ item ∈ lines, item.line.Linked data code

variable {data code : List Label} {procedures : List Procedure} {frame : Option Frame}
variable {left right test thenBranch elseBranch body : List CodeLine}

@[simp] theorem linked_nil : Linked data code [] := by
  simp [Linked]

@[simp] theorem linked_append (first second : List CodeLine) :
    Linked data code (first ++ second) ↔ Linked data code first ∧ Linked data code second :=
  List.forall_mem_append

@[simp] theorem linked_cons (first : CodeLine) (rest : List CodeLine) :
    Linked data code (first :: rest) ↔
      first.line.Linked data code ∧ Linked data code rest :=
  List.forall_mem_cons

@[simp] theorem linked_push (register : Register) : Linked data code (push register) := by
  simp [push, Line.Linked]

@[simp] theorem linked_pop (register : Register) : Linked data code (pop register) := by
  simp [pop, Line.Linked]

@[simp] theorem linked_discard (count : Nat) : Linked data code (discard count) := by
  induction count with
  | zero => simp [discard]
  | succ count ih => simp [discard, ih]

@[simp] theorem linked_clearLocals (count : Nat) : Linked data code (clearLocals count) := by
  induction count with
  | zero => simp [clearLocals]
  | succ count ih => simp [clearLocals, Line.Linked, ih]

@[simp] theorem linked_operate (operator : Operator) : Linked data code (operate operator) := by
  cases operator <;> simp [operate, Line.Linked]

@[simp] theorem linked_service (number : Int32) : Linked data code (service number) := by
  simp [service, Line.Linked]

@[simp] theorem linked_operands :
    Linked data code (operands left right) ↔ Linked data code left ∧ Linked data code right := by
  simp [operands]

@[simp] theorem linked_compare (relation : Comparison) (otherwise : Label) :
    Linked data code (compare relation left right otherwise) ↔
      (Linked data code left ∧ Linked data code right) ∧ otherwise ∈ code := by
  simp [compare, Line.Linked]

@[simp] theorem linked_truth (number : Nat) :
    Linked data code (truth number test) ↔
      Linked data code test ∧ .numbered "done" number ∈ code := by
  simp [truth, Line.Linked]

@[simp] theorem linked_call (name : String) (params : Nat) :
    Linked data code (call name params body) ↔
      Linked data code body ∧ .procedure name ∈ code := by
  simp [call, Line.Linked]

theorem linked_choose (number : Nat) (tests : Linked data code test)
    (thens : Linked data code thenBranch) (elses : Linked data code elseBranch)
    (joins : .numbered "endif" number ∈ code) :
    Linked data code (choose number test thenBranch elseBranch) := by
  simp [choose, Line.Linked, tests, thens, elses, joins]

theorem linked_loop (number : Nat) (tests : Linked data code test) (runs : Linked data code body)
    (repeats : .numbered "loop" number ∈ code) :
    Linked data code (loop number test body) := by
  simp [loop, Line.Linked, tests, runs, repeats]

theorem linked_writeLine (lineEnd : .newLine ∈ data) : Linked data code writeLine := by
  simp [writeLine, Line.Linked, lineEnd]

/-! ## Names without a slot -/

/-- A name that has no slot in a frame. -/
def Unowned (frame : Option Frame) (name : String) : Prop :=
  ∀ inner, frame = some inner → inner.procedure.owns name = false

@[simp] theorem unowned_deeper (name : String) :
    Unowned (deeper frame) name ↔ Unowned frame name := by
  cases frame with
  | none => rfl
  | some inner => simp [Unowned, deeper, Frame.push]

/-- The access to a variable refers to its global word if the variable has no slot. -/
theorem linked_access {word : Nat → Register → Instr} {name : String}
    (plain : ∀ offset base, (Line.instr (word offset base)).Linked data code)
    (known : Unowned frame name → .global name ∈ data) :
    Linked data code (access word frame name) := by
  unfold access
  split
  · simp [plain]
  · next absent =>
      have unowned : Unowned frame name := by
        intro inner same
        rw [same, Option.bind_some, Option.map_eq_none_iff] at absent
        exact Frame.offset?_eq_none.1 absent
      simp only [linked_cons, linked_nil, line_instr, plain, and_true]
      exact known unowned

theorem linked_load {name : String} (known : Unowned frame name → .global name ∈ data) :
    Linked data code (load frame name) :=
  linked_access (fun _ _ => trivial) known

theorem linked_store {name : String} (known : Unowned frame name → .global name ∈ data) :
    Linked data code (store frame name) :=
  linked_access (fun _ _ => trivial) known

/-- The copy of the result uses slots alone. -/
theorem linked_copyResult (procedure : Procedure) : Linked data code (copyResult procedure) := by
  unfold copyResult
  split
  · next shadowed =>
      have loads : Linked data code (load (some { procedure }) procedure.name) := by
        apply linked_load
        intro unowned
        have owned := unowned _ rfl
        simp [Procedure.owns] at owned
      simp [loads, Line.Linked]
  · exact linked_nil

/-! ## Trees -/

/-- Everything that the code of some expressions and the stores to some targets refer to, apart from
the labels of the code itself, is defined. -/
structure Resolved (data code : List Label) (frame : Option Frame) (parts : List Expr)
    (targets : List String) : Prop where
  reads : ∀ name, .var name ∈ parts → Unowned frame name → .global name ∈ data
  writes : ∀ name ∈ targets, Unowned frame name → .global name ∈ data
  calls : ∀ name args, .call name args ∈ parts → .procedure name ∈ code

theorem Resolved.mono {parts parts' : List Expr} {targets targets' : List String}
    (resolved : Resolved data code frame parts targets) (fewer : parts' ⊆ parts)
    (fewer' : targets' ⊆ targets) : Resolved data code frame parts' targets' where
  reads name member := resolved.reads name (fewer member)
  writes name member := resolved.writes name (fewer' member)
  calls name args member := resolved.calls name args (fewer member)

theorem Resolved.deeper {parts : List Expr} {targets : List String}
    (resolved : Resolved data code frame parts targets) :
    Resolved data code (deeper frame) parts targets where
  reads name member unowned := resolved.reads name member ((unowned_deeper name).1 unowned)
  writes name member unowned := resolved.writes name member ((unowned_deeper name).1 unowned)
  calls := resolved.calls

mutual

/-- The code of an expression is linked if its own labels belong to the code. -/
theorem linked_expression (tree : Expr) (frame : Option Frame) (labels : Nat)
    (resolved : Resolved data code frame tree.parts [])
    (own : placed (expression procedures frame labels tree) ⊆ code) :
    Linked data code (expression procedures frame labels tree) := by
  cases tree with
  | num value => simp [expression, Line.Linked]
  | var name =>
      rw [expression]
      apply linked_load
      exact resolved.reads name List.mem_cons_self
  | binary operator left right =>
      simp only [expression, placed_append, placed_operands, placed_operate, List.append_nil,
        List.append_subset] at own
      simp only [expression, linked_append, linked_operands, linked_operate, and_true]
      have inner : Resolved data code frame (left.parts ++ right.parts) [] :=
        resolved.mono (List.subset_cons_self _ _) (List.Subset.refl _)
      constructor
      · apply linked_expression left _ _ _ own.1
        exact inner.mono (List.subset_append_left _ _) (List.Subset.refl _)
      · apply linked_expression right _ _ _ own.2
        exact (inner.mono (List.subset_append_right _ _) (List.Subset.refl _)).deeper
  | compare relation left right =>
      simp only [expression, placed_truth, placed_compare, List.append_subset,
        List.cons_subset] at own
      simp only [expression, linked_truth, linked_compare]
      have inner : Resolved data code frame (left.parts ++ right.parts) [] :=
        resolved.mono (List.subset_cons_self _ _) (List.Subset.refl _)
      refine ⟨⟨⟨?_, ?_⟩, own.2.1⟩, own.2.2.1⟩
      · apply linked_expression left _ _ _ own.1.1
        exact inner.mono (List.subset_append_left _ _) (List.Subset.refl _)
      · apply linked_expression right _ _ _ own.1.2
        exact (inner.mono (List.subset_append_right _ _) (List.Subset.refl _)).deeper
  | call name args =>
      simp only [expression, placed_call] at own
      simp only [expression, linked_call]
      constructor
      · apply linked_arguments args _ _ _ _ own
        exact (resolved.mono (List.subset_cons_self _ _) (List.Subset.refl _)).deeper.deeper
      · exact resolved.calls name args List.mem_cons_self

/-- The code of arguments is linked if its own labels belong to the code. -/
theorem linked_arguments (args : List Expr) (params : Nat) (frame : Option Frame) (labels : Nat)
    (resolved : Resolved data code frame (Expr.partsAll args) [])
    (own : placed (arguments procedures frame labels params args) ⊆ code) :
    Linked data code (arguments procedures frame labels params args) := by
  cases args with
  | nil => cases params <;> simp [arguments]
  | cons first rest =>
      have one : Resolved data code frame first.parts [] :=
        resolved.mono (List.subset_append_left _ _) (List.Subset.refl _)
      have others : Resolved data code frame (Expr.partsAll rest) [] :=
        resolved.mono (List.subset_append_right _ _) (List.Subset.refl _)
      cases params with
      | zero =>
          simp only [arguments, placed_append, List.append_subset] at own
          simp only [arguments, linked_append]
          exact ⟨linked_expression first _ _ one own.1, linked_arguments rest _ _ _ others own.2⟩
      | succ params =>
          simp only [arguments, placed_append, placed_push, List.append_nil,
            List.append_subset] at own
          simp only [arguments, linked_append, linked_push, and_true]
          exact ⟨linked_expression first _ _ one own.1,
            linked_arguments rest _ _ _ others.deeper own.2⟩

end

theorem linked_condition {test : Condition} {labels : Nat} {otherwise : Label}
    (resolved : Resolved data code frame test.parts [])
    (own : placed (condition procedures frame labels test otherwise) ⊆ code)
    (leaves : otherwise ∈ code) :
    Linked data code (condition procedures frame labels test otherwise) := by
  simp only [condition, placed_compare, List.append_subset] at own
  simp only [condition, linked_compare]
  refine ⟨⟨?_, ?_⟩, leaves⟩
  · apply linked_expression _ _ _ _ own.1
    exact resolved.mono (List.subset_append_left _ _) (List.Subset.refl _)
  · apply linked_expression _ _ _ _ own.2
    exact (resolved.mono (List.subset_append_right _ _) (List.Subset.refl _)).deeper

mutual

/-- The code of a statement is linked if its own labels belong to the code. -/
theorem linked_statement (tree : Stmt) (labels : Nat) (lineEnd : .newLine ∈ data)
    (resolved : Resolved data code frame tree.expressions tree.targets)
    (own : placed (statement procedures frame labels tree) ⊆ code) :
    Linked data code (statement procedures frame labels tree) := by
  cases tree with
  | assign target value =>
      simp only [statement, placed_append, placed_store, List.append_nil] at own
      simp only [statement, linked_append]
      constructor
      · apply linked_expression _ _ _ _ own
        exact resolved.mono (List.Subset.refl _) (List.nil_subset _)
      · apply linked_store
        exact resolved.writes target List.mem_cons_self
  | block body => exact linked_statements body labels lineEnd resolved own
  | ifThen test body =>
      simp only [statement, choose, placed_append, placed_instr, placed_label, placed_nil,
        List.append_subset, List.cons_subset] at own
      obtain ⟨⟨⟨⟨ownTest, ownBody⟩, leaves, -⟩, -⟩, joins, -⟩ := own
      rw [statement]
      apply linked_choose _ _ _ linked_nil joins
      · apply linked_condition _ ownTest leaves
        exact resolved.mono (List.subset_append_left _ _) (List.nil_subset _)
      · apply linked_statement body _ lineEnd _ ownBody
        exact resolved.mono (List.subset_append_right _ _) (List.Subset.refl _)
  | ifElse test thenBranch elseBranch =>
      simp only [statement, choose, placed_append, placed_instr, placed_label, placed_nil,
        List.append_subset, List.cons_subset] at own
      obtain ⟨⟨⟨⟨ownTest, ownThen⟩, leaves, -⟩, ownElse⟩, joins, -⟩ := own
      have front : Resolved data code frame (test.parts ++ thenBranch.expressions)
          thenBranch.targets :=
        resolved.mono (List.subset_append_left _ _) (List.subset_append_left _ _)
      rw [statement]
      apply linked_choose _ _ _ _ joins
      · apply linked_condition _ ownTest leaves
        exact front.mono (List.subset_append_left _ _) (List.nil_subset _)
      · apply linked_statement thenBranch _ lineEnd _ ownThen
        exact front.mono (List.subset_append_right _ _) (List.Subset.refl _)
      · apply linked_statement elseBranch _ lineEnd _ ownElse
        exact resolved.mono (List.subset_append_right _ _) (List.subset_append_right _ _)
  | loop test body =>
      simp only [statement, loop, placed_append, placed_instr, placed_label, placed_nil,
        List.append_subset, List.cons_subset] at own
      obtain ⟨⟨⟨⟨again, -⟩, ownTest⟩, ownBody⟩, leaves, -⟩ := own
      rw [statement]
      apply linked_loop _ _ _ again
      · apply linked_condition _ ownTest leaves
        exact resolved.mono (List.subset_append_left _ _) (List.nil_subset _)
      · apply linked_statement body _ lineEnd _ ownBody
        exact resolved.mono (List.subset_append_right _ _) (List.Subset.refl _)
  | read target =>
      simp only [statement, linked_append, linked_service, true_and]
      apply linked_store
      exact resolved.writes target List.mem_cons_self
  | write value =>
      simp only [statement, placed_append, placed_writeLine, List.append_nil] at own
      simp only [statement, linked_append]
      exact ⟨linked_expression _ _ _ resolved own, linked_writeLine lineEnd⟩

/-- The code of statements is linked if its own labels belong to the code. -/
theorem linked_statements (trees : List Stmt) (labels : Nat) (lineEnd : .newLine ∈ data)
    (resolved : Resolved data code frame (Stmt.expressionsAll trees) (Stmt.targetsAll trees))
    (own : placed (statements procedures frame labels trees) ⊆ code) :
    Linked data code (statements procedures frame labels trees) := by
  cases trees with
  | nil => simp [statements]
  | cons first rest =>
      simp only [statements, placed_append, List.append_subset] at own
      simp only [statements, linked_append]
      constructor
      · apply linked_statement first _ lineEnd _ own.1
        exact resolved.mono (List.subset_append_left _ _) (List.subset_append_left _ _)
      · apply linked_statements rest _ lineEnd _ own.2
        exact resolved.mono (List.subset_append_right _ _) (List.subset_append_right _ _)

end

theorem linked_procedure {procedure : Procedure} {labels : Nat} (lineEnd : .newLine ∈ data)
    (resolved : Resolved data code (some { procedure }) procedure.body.expressions
      procedure.body.targets)
    (own : placed (Code.procedure procedures labels procedure) ⊆ code) :
    Linked data code (Code.procedure procedures labels procedure) := by
  rw [placed_procedure, List.cons_subset] at own
  have body := linked_statement procedure.body labels lineEnd resolved own.2
  simp [Code.procedure, Line.Linked, body, linked_copyResult]

theorem linked_bodies {bodies : List Procedure} {labels : Nat} (lineEnd : .newLine ∈ data)
    (resolved : ∀ procedure ∈ bodies, Resolved data code (some { procedure })
      procedure.body.expressions procedure.body.targets)
    (own : placed (Code.bodies procedures labels bodies) ⊆ code) :
    Linked data code (Code.bodies procedures labels bodies) := by
  induction bodies generalizing labels with
  | nil => simp [Code.bodies]
  | cons first rest ih =>
      rw [Code.bodies, placed_append, List.append_subset] at own
      rw [Code.bodies, linked_append]
      constructor
      · exact linked_procedure lineEnd (resolved first List.mem_cons_self) own.1
      · apply ih _ own.2
        intro procedure member
        exact resolved procedure (List.mem_cons_of_mem _ member)

theorem linked_program {program : Program} (lineEnd : .newLine ∈ data)
    (main : Resolved data code none program.body.expressions program.body.targets)
    (bodies : ∀ procedure ∈ program.procedures, Resolved data code (some { procedure })
      procedure.body.expressions procedure.body.targets)
    (own : placed (Code.program program) ⊆ code) : Linked data code (Code.program program) := by
  simp only [Code.program, placed_append, List.append_subset] at own
  have linkedMain := linked_statement program.body 0 lineEnd main own.1.1.2
  have linkedBodies := linked_bodies lineEnd bodies own.2
  simp [Code.program, Line.Linked, linkedMain, linkedBodies]

end Code

/-! ## The assembly of a program -/

variable {program : Program} {procedure : Procedure} {name : String}

theorem global_mem_data (listed : name ∈ program.globalNames) :
    .global name ∈ definedLabels (Generator.dataLines program) := by
  rw [definedLabels_dataLines]
  exact List.mem_cons_of_mem _ (List.mem_map_of_mem listed)

theorem procedure_mem_code (listed : procedure ∈ program.procedures) :
    .procedure procedure.name ∈ definedLabels (Code.lines (Code.program program)) := by
  obtain ⟨high, numbered, fresh, same⟩ := definedLabels_program program
  apply same.mem_iff.2
  apply List.mem_cons_of_mem
  exact List.mem_append_left _ (List.mem_map.2 ⟨procedure, listed, rfl⟩)

/-- The section of the code starts where the code does, since no line of the data starts it. -/
theorem sections_linesOf (program : Program) :
    dataSection (linesOf program) = Generator.dataLines program ∧
      codeSection (linesOf program) = Code.lines (Code.program program) := by
  have inside : ∀ line ∈ Generator.dataLines program, decide (line ≠ .directive ".text") := by
    simp [Generator.dataLines]
  have starts : Code.lines (Code.program program) =
      .directive ".text" :: (Code.lines (Code.program program)).tail := by
    simp [Code.program]
  constructor
  · rw [dataSection, linesOf, List.takeWhile_append_of_pos inside, starts]
    simp
  · rw [codeSection, linesOf, List.dropWhile_append_of_pos inside, starts]
    simp

/-- The labels of the data and of the code of a program. -/
abbrev Program.Resolves (program : Program) (frame : Option Frame) (tree : Stmt) : Prop :=
  Code.Resolved (definedLabels (Generator.dataLines program))
    (definedLabels (Code.lines (Code.program program))) frame tree.expressions tree.targets

theorem resolves_main (callable : program.Callable) : program.Resolves none program.body := by
  constructor
  · intro name read unowned
    apply global_mem_data
    exact mem_globalNames.2 (.inr (.inl (mem_touched_of_var read)))
  · intro name written unowned
    apply global_mem_data
    exact mem_globalNames.2 (.inr (.inl (List.mem_append_left _ written)))
  · intro name args called
    obtain ⟨procedure, listed, rfl, -⟩ :=
      callable.calls name args (List.mem_append_left _ called)
    exact procedure_mem_code listed

/-- A name that a procedure touches without owning it is a global name. -/
theorem mem_globalNames_of_unowned (listed : procedure ∈ program.procedures)
    (touched : name ∈ procedure.body.touched)
    (unowned : Code.Unowned (some { procedure }) name) : name ∈ program.globalNames := by
  apply mem_globalNames.2
  refine .inr (.inr ⟨procedure, listed, List.mem_filter.2 ⟨touched, ?_⟩⟩)
  rw [unowned _ rfl]
  rfl

theorem resolves_procedure (callable : program.Callable)
    (listed : procedure ∈ program.procedures) :
    program.Resolves (some { procedure }) procedure.body := by
  constructor
  · intro name read unowned
    apply global_mem_data
    exact mem_globalNames_of_unowned listed (mem_touched_of_var read) unowned
  · intro name written unowned
    apply global_mem_data
    exact mem_globalNames_of_unowned listed (List.mem_append_left _ written) unowned
  · intro name args called
    have occurs : .call name args ∈ program.expressions :=
      List.mem_append_right _ (List.mem_flatMap.2 ⟨procedure, listed, called⟩)
    obtain ⟨other, known, rfl, -⟩ := callable.calls name args occurs
    exact procedure_mem_code known

theorem linked_dataLines (data code : List Label) (program : Program) :
    ∀ line ∈ Generator.dataLines program, line.Linked data code := by
  simp [Generator.dataLines, Line.Linked]

theorem closed_linesOf (callable : program.Callable) : Closed (linesOf program) := by
  have lineEnd : .newLine ∈ definedLabels (Generator.dataLines program) := by
    rw [definedLabels_dataLines]
    exact List.mem_cons_self
  have linked := Code.linked_program lineEnd (resolves_main callable)
    (fun _ listed => resolves_procedure callable listed) (List.Subset.refl _)
  constructor
  · exact nodup_definedLabels callable.distinct
  · intro line member
    rw [(sections_linesOf program).1, (sections_linesOf program).2]
    cases List.mem_append.1 member with
    | inl data => exact linked_dataLines _ _ program line data
    | inr code =>
        obtain ⟨item, inside, rfl⟩ := List.mem_map.1 code
        exact linked item inside

/-- The assembly of a program is closed and unambiguous in its labels. Its text is read as lines
that define no label twice and in which every address that is taken is defined in the data, and
every label of a branch, a jump or a call in the code. -/
theorem compile_closed {program : Program} {text : String} (named : program.Named)
    (compiled : compile program = .ok text) :
    ∃ lines, Loader.read? text = some lines ∧ Closed lines := by
  have callable := fault?_eq_none_iff.1 (compile_eq_ok.1 compiled).1
  exact ⟨linesOf program, read?_compile named compiled, closed_linesOf callable⟩

/-- A program whose names are spelled like labels of the assembly, and which reads and writes a
name that is declared nowhere. -/
def borrowingProgram : Program where
  globals := ["newLine", "main"]
  procedures := [
    { name := "main", params := ["else1"], locals := ["procmain"],
      body := .loop ⟨.lt, .var "var", .var "else1"⟩ (.block [
        .assign "var" (.binary .add (.var "var") (.compare .ne (.var "procmain") (.num 0))),
        .ifThen ⟨.eq, .call "loop1" [.var "var"], .num 1⟩ (.read "main")]) },
    { name := "loop1", params := [], locals := [],
      body := .assign "loop1" (.compare .gt (.var "main") (.call "main" [.num 2, .num 3])) }]
  body := .ifElse ⟨.ge, .var "done1", .num 0⟩ (.write (.call "main" [.num 3]))
    (.read "newLine")

theorem compile_closed_borrowingProgram :
    borrowingProgram.Named ∧
      compile borrowingProgram = .ok (Line.renderAll (linesOf borrowingProgram)) ∧
      ∃ lines, Loader.read? (Line.renderAll (linesOf borrowingProgram)) = some lines ∧
        Closed lines := by
  have named : borrowingProgram.Named := by
    unfold Program.Named
    decide
  have compiled := compile_eq_ok.2 ⟨(rfl : borrowingProgram.fault? = none), rfl⟩
  exact ⟨named, compiled, compile_closed named compiled⟩

end MiniPascal
