import MiniPascal.Proofs.Compile.Emission
import MiniPascal.Proofs.Machine.Loader
import MiniPascal.Proofs.Tree.Names

/-!
# The text of a program's assembly

The names in the assembly of a program with identifiers for names are plain, so the lines of the
assembly can be read from its text.
-/

namespace MiniPascal

open Loader

/-- Code of plain lines. -/
def plainCode (code : List CodeLine) : Bool :=
  code.all fun line => plainLine line.line

theorem plainName_append {first second : String} (one : plainName first)
    (two : plainName second) : plainName (first ++ second) := by
  rw [plainName] at *
  rw [String.toList_append, List.all_append, one, two]
  rfl

theorem plainName_of_isIdentifier {name : String} (identifier : isIdentifier name) :
    plainName name := by
  have alphanumeric := isAlphanum_of_isIdentifier identifier
  rw [List.all_eq_true] at alphanumeric
  rw [plainName, List.all_eq_true]
  intro character member
  rw [plainChar, alphanumeric character member]
  rfl

@[simp] theorem plainName_global {name : String} (identifier : isIdentifier name) :
    plainName (Label.global name).name :=
  plainName_append (by decide) (plainName_of_isIdentifier identifier)

@[simp] theorem plainName_procedure {name : String} (identifier : isIdentifier name) :
    plainName (Label.procedure name).name :=
  plainName_append (by decide) (plainName_of_isIdentifier identifier)

theorem plainName_repr (number : Nat) : plainName (Nat.repr number) := by
  rw [plainName, List.all_eq_true]
  intro character member
  have digit := Decimal.isDigit_of_mem_repr member
  simp [plainChar, Char.isAlphanum, digit]

theorem plainName_numbered (purpose : String) (plain : plainName purpose) (number : Nat) :
    plainName (Label.numbered purpose number).name :=
  plainName_append plain (plainName_repr number)

namespace Code

@[simp] theorem plainCode_nil : plainCode [] = true := rfl

@[simp] theorem plainCode_append (first second : List CodeLine) :
    plainCode (first ++ second) = (plainCode first && plainCode second) :=
  List.all_append

@[simp] theorem plainCode_cons (first : CodeLine) (rest : List CodeLine) :
    plainCode (first :: rest) = (plainLine first.line && plainCode rest) := rfl

@[simp] theorem line_instr (instruction : Instr) : (instr instruction).line = .instr instruction :=
  rfl

@[simp] theorem line_label (place : Label) : (label place).line = .label place := rfl

@[simp] theorem plainLine_label (place : Label) : plainLine (.label place) = plainName place.name :=
  rfl

@[simp] theorem plainLine_instr (instruction : Instr) :
    plainLine (.instr instruction) = (names instruction).all plainName := rfl

@[simp] theorem plainName_accumulator : plainName Register.accumulator.name = true := by decide

@[simp] theorem plainName_scratch : plainName Register.scratch.name = true := by decide

@[simp] theorem plainName_argument : plainName Register.argument.name = true := by decide

@[simp] theorem plainName_stackPointer : plainName Register.stackPointer.name = true := by decide

@[simp] theorem plainName_returnAddress : plainName Register.returnAddress.name = true := by decide

@[simp] theorem plainCode_push {register : Register} (plain : plainName register.name) :
    plainCode (push register) := by
  simp [push, names, plain]

@[simp] theorem plainCode_pop {register : Register} (plain : plainName register.name) :
    plainCode (pop register) := by
  simp [pop, names, plain]

@[simp] theorem plainCode_discard (count : Nat) : plainCode (discard count) := by
  induction count with
  | zero => rfl
  | succ count ih => simp [discard, ih]

theorem plainCode_load {name : String} (frame : Option Frame) (identifier : isIdentifier name) :
    plainCode (load frame name) := by
  rw [load, access]
  split <;> simp [names, identifier]

theorem plainCode_store {name : String} (frame : Option Frame) (identifier : isIdentifier name) :
    plainCode (store frame name) := by
  rw [store, access]
  split <;> simp [names, identifier]

@[simp] theorem plainCode_operate (operator : Operator) : plainCode (operate operator) := by
  cases operator <;> decide

@[simp] theorem plainCode_operands (left right : List CodeLine) :
    plainCode (operands left right) = (plainCode left && plainCode right) := by
  simp [operands]

@[simp] theorem plainCode_compare (relation : Comparison) (left right : List CodeLine)
    {otherwise : Label} (plain : plainName otherwise.name) :
    plainCode (compare relation left right otherwise) = (plainCode left && plainCode right) := by
  simp [compare, names, plain]

theorem plainCode_truth (number : Nat) (comparison : List CodeLine) :
    plainCode (truth number comparison) = plainCode comparison := by
  have done := plainName_numbered "done" (by decide) number
  have falsity := plainName_numbered "false" (by decide) number
  simp [truth, names, done, falsity]

theorem plainCode_call {name : String} (params : Nat) (arguments : List CodeLine)
    (identifier : isIdentifier name) :
    plainCode (call name params arguments) = plainCode arguments := by
  simp [call, names, identifier]

/-- The names of expressions are identifiers. -/
def Named (parts : List Expr) : Prop :=
  ∀ part ∈ parts, ∀ name, part.name? = some name → isIdentifier name

theorem named_append {first second : List Expr} :
    Named (first ++ second) ↔ Named first ∧ Named second :=
  List.forall_mem_append

mutual

theorem plainCode_expression (procedures : List Procedure) (tree : Expr) (frame : Option Frame)
    (labels : Nat) (named : Named tree.parts) :
    plainCode (expression procedures frame labels tree) := by
  cases tree with
  | num value => simp [expression, names]
  | var name =>
      rw [expression]
      exact plainCode_load frame (named (.var name) (by simp [Expr.parts]) name rfl)
  | binary operator left right =>
      obtain ⟨first, second⟩ := named_append.1 fun part member =>
        named part (List.mem_cons_of_mem _ member)
      simp [expression, plainCode_expression procedures left _ _ first,
        plainCode_expression procedures right _ _ second]
  | compare relation left right =>
      obtain ⟨first, second⟩ := named_append.1 fun part member =>
        named part (List.mem_cons_of_mem _ member)
      have falsity := plainName_numbered "false" (by decide) (labels + 1)
      simp [expression, plainCode_truth, falsity, plainCode_expression procedures left _ _ first,
        plainCode_expression procedures right _ _ second]
  | call name args =>
      have inner : Named (Expr.partsAll args) := fun part member =>
        named part (List.mem_cons_of_mem _ member)
      rw [expression,
        plainCode_call _ _ (named (.call name args) (by simp [Expr.parts]) name rfl)]
      exact plainCode_arguments procedures args _ _ _ inner

theorem plainCode_arguments (procedures : List Procedure) (args : List Expr) (params : Nat)
    (frame : Option Frame) (labels : Nat) (named : Named (Expr.partsAll args)) :
    plainCode (arguments procedures frame labels params args) := by
  match args, params with
  | [], params => cases params <;> rfl
  | first :: rest, 0 =>
      obtain ⟨one, others⟩ := named_append.1 named
      simp [arguments, plainCode_expression procedures first _ _ one,
        plainCode_arguments procedures rest _ _ _ others]
  | first :: rest, params + 1 =>
      obtain ⟨one, others⟩ := named_append.1 named
      simp [arguments, plainCode_expression procedures first _ _ one,
        plainCode_arguments procedures rest _ _ _ others]

end

theorem plainCode_condition (procedures : List Procedure) (test : Condition)
    (frame : Option Frame) (labels : Nat) {otherwise : Label} (plain : plainName otherwise.name)
    (named : Named test.parts) :
    plainCode (condition procedures frame labels test otherwise) := by
  obtain ⟨first, second⟩ := named_append.1 named
  simp [condition, plain, plainCode_expression procedures test.left _ _ first,
    plainCode_expression procedures test.right _ _ second]

theorem plainCode_choose (number : Nat) (test thenBranch elseBranch : List CodeLine) :
    plainCode (choose number test thenBranch elseBranch) =
      (plainCode test && (plainCode thenBranch && plainCode elseBranch)) := by
  have otherwise := plainName_numbered "else" (by decide) number
  have done := plainName_numbered "endif" (by decide) number
  simp [choose, names, otherwise, done]

theorem plainCode_loop (number : Nat) (test body : List CodeLine) :
    plainCode (loop number test body) = (plainCode test && plainCode body) := by
  have start := plainName_numbered "loop" (by decide) number
  have done := plainName_numbered "endloop" (by decide) number
  simp [loop, names, start, done]

@[simp] theorem plainCode_service (number : Int32) : plainCode (service number) := by
  simp [service, names]

@[simp] theorem plainCode_writeLine : plainCode writeLine := by
  have lineEnd : plainName Label.newLine.name := by decide
  simp [writeLine, names, lineEnd]

mutual

theorem plainCode_statement (procedures : List Procedure) (tree : Stmt) (frame : Option Frame)
    (labels : Nat) (named : Named tree.expressions)
    (targets : ∀ name ∈ tree.targets, isIdentifier name) :
    plainCode (statement procedures frame labels tree) := by
  cases tree with
  | assign target value =>
      have identifier := targets target (by simp [Stmt.targets])
      simp [statement, plainCode_expression procedures value _ _ named,
        plainCode_store _ identifier]
  | block body =>
      rw [statement]
      exact plainCode_statements procedures body _ _ named targets
  | ifThen test body =>
      obtain ⟨first, second⟩ := named_append.1 named
      have otherwise := plainName_numbered "else" (by decide) (labels + 1)
      simp [statement, plainCode_choose, plainCode_condition procedures test _ _ otherwise first,
        plainCode_statement procedures body _ _ second targets]
  | ifElse test thenBranch elseBranch =>
      obtain ⟨first, third⟩ := named_append.1 named
      obtain ⟨first, second⟩ := named_append.1 first
      obtain ⟨targets, targets'⟩ := List.forall_mem_append.1 targets
      have otherwise := plainName_numbered "else" (by decide) (labels + 1)
      simp [statement, plainCode_choose, plainCode_condition procedures test _ _ otherwise first,
        plainCode_statement procedures thenBranch _ _ second targets,
        plainCode_statement procedures elseBranch _ _ third targets']
  | loop test body =>
      obtain ⟨first, second⟩ := named_append.1 named
      have otherwise := plainName_numbered "endloop" (by decide) (labels + 1)
      simp [statement, plainCode_loop, plainCode_condition procedures test _ _ otherwise first,
        plainCode_statement procedures body _ _ second targets]
  | read target =>
      have identifier := targets target (by simp [Stmt.targets])
      simp [statement, plainCode_store _ identifier]
  | write value => simp [statement, plainCode_expression procedures value _ _ named]

theorem plainCode_statements (procedures : List Procedure) (trees : List Stmt)
    (frame : Option Frame) (labels : Nat) (named : Named (Stmt.expressionsAll trees))
    (targets : ∀ name ∈ Stmt.targetsAll trees, isIdentifier name) :
    plainCode (statements procedures frame labels trees) := by
  cases trees with
  | nil => rfl
  | cons first rest =>
      obtain ⟨one, others⟩ := named_append.1 named
      obtain ⟨targets, targets'⟩ := List.forall_mem_append.1 targets
      simp [statements, plainCode_statement procedures first _ _ one targets,
        plainCode_statements procedures rest _ _ others targets']

end

/-- The names of a statement are those of its expressions and its targets. -/
theorem plainCode_of_names (procedures : List Procedure) (tree : Stmt) (frame : Option Frame)
    (labels : Nat) (named : ∀ name ∈ tree.names, isIdentifier name) :
    plainCode (statement procedures frame labels tree) := by
  obtain ⟨targets, inner⟩ := List.forall_mem_append.1 named
  exact plainCode_statement procedures tree frame labels
    (fun part member name same => inner name (List.mem_filterMap.2 ⟨part, member, same⟩)) targets

@[simp] theorem plainCode_clearLocals (count : Nat) : plainCode (clearLocals count) := by
  induction count with
  | zero => rfl
  | succ count ih => simp [clearLocals, names, ih]

theorem plainCode_copyResult (procedure : Procedure) (identifier : isIdentifier procedure.name) :
    plainCode (copyResult procedure) := by
  rw [copyResult]
  split
  · simp [plainCode_load _ identifier, names]
  · rfl

theorem plainCode_procedure (procedures : List Procedure) (labels : Nat) (procedure : Procedure)
    (named : ∀ name ∈ procedure.names, isIdentifier name) :
    plainCode (Code.procedure procedures labels procedure) := by
  have identifier := named procedure.name List.mem_cons_self
  have body := plainCode_of_names procedures procedure.body (some { procedure }) labels
    fun name member => named name (List.mem_cons_of_mem _ (List.mem_append_right _ member))
  simp [Code.procedure, identifier, body, plainCode_copyResult procedure identifier, names]

theorem plainCode_bodies (procedures bodies : List Procedure) (labels : Nat)
    (named : ∀ procedure ∈ bodies, ∀ name ∈ procedure.names, isIdentifier name) :
    plainCode (Code.bodies procedures labels bodies) := by
  induction bodies generalizing labels with
  | nil => rfl
  | cons first rest ih =>
      obtain ⟨one, others⟩ := List.forall_mem_cons.1 named
      simp [Code.bodies, plainCode_procedure procedures labels first one, ih _ others]

end Code

/-- The global names of a program are names of the program. -/
theorem mem_names_of_mem_globalNames {program : Program} {name : String}
    (listed : name ∈ program.globalNames) : name ∈ program.names := by
  have inside {tree : Stmt} (touched : name ∈ tree.touched) : name ∈ tree.names := by
    rcases List.mem_append.1 touched with target | read
    · exact List.mem_append_left _ target
    · obtain ⟨part, member, same⟩ := List.mem_filterMap.1 read
      refine List.mem_append_right _ (List.mem_filterMap.2 ⟨part, member, ?_⟩)
      cases part with
      | var other => exact same
      | _ => cases same
  rcases mem_globalNames.1 listed with declared | touched | ⟨procedure, member, outer⟩
  · exact List.mem_append_left _ (List.mem_append_left _ declared)
  · exact List.mem_append_left _ (List.mem_append_right _ (inside touched))
  · refine List.mem_append_right _ (List.mem_flatMap.2 ⟨procedure, member, ?_⟩)
    exact List.mem_cons_of_mem _
      (List.mem_append_right _ (inside (List.mem_filter.1 outer).1))

theorem plainLine_linesOf {program : Program} (named : program.Named) :
    ∀ line ∈ linesOf program, plainLine line := by
  have main := Code.plainCode_of_names program.procedures.reverse program.body none 0
    fun name member => named name (List.mem_append_left _ (List.mem_append_right _ member))
  have bodies := Code.plainCode_bodies program.procedures.reverse program.procedures
    program.body.labelCount fun procedure member name listed =>
      named name (List.mem_append_right _ (List.mem_flatMap.2 ⟨procedure, member, listed⟩))
  have code : plainCode (Code.program program) := by
    simp only [Code.program, Code.plainCode_append, main, bodies, Code.plainCode_service]
    decide
  have heading : ∀ line ∈ [Line.comment "MIPS code generated by mipas 0.1.0", .directive ".data",
      .asciiz .newLine "\\n"], plainLine line := by
    decide
  intro line member
  rcases List.mem_append.1 member with data | coded
  · rcases List.mem_append.1 data with fixed | word
    · exact heading line fixed
    · obtain ⟨name, listed, rfl⟩ := List.mem_map.1 word
      exact plainName_global (named name (mem_names_of_mem_globalNames listed))
  · obtain ⟨marked, inside, rfl⟩ := List.mem_map.1 coded
    exact List.all_eq_true.1 code marked inside

/-- The lines of a program's assembly are read from its text. -/
theorem read?_compile {program : Program} {text : String} (named : program.Named)
    (compiled : compile program = .ok text) : read? text = some (linesOf program) := by
  rw [(compile_eq_ok.1 compiled).2]
  exact read?_renderAll (plainLine_linesOf named)

end MiniPascal
