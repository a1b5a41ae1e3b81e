import MiniPascal.Assembly.Count
import MiniPascal.Proofs.Compile.Discipline
import MiniPascal.Proofs.Compile.Rejection

/-!
# The size of a program's assembly

How many instructions the assembly of a program has can be said from its tree alone: each construct
takes a fixed number of them besides those of its parts, and a variable takes one more where it has
no slot in a frame. Counting the lines of the text that look like instructions gives this number.
-/

namespace MiniPascal

/-! ### Instructions in a text -/

/-- Whether a line is an instruction. -/
def Line.isInstr : Line → Bool
  | .instr _ => true
  | _ => false

/-- An indented word of small letters is recognised if a blank or nothing follows it. -/
theorem isInstructionLine_tab {letters behind : List Char} (nonempty : letters ≠ [])
    (small : ∀ character ∈ letters, character.isLower = true)
    (parted : behind = [] ∨ behind.head? = some ' ') :
    isInstructionLine ('\t' :: (letters ++ behind)) = true := by
  have dropped : (letters ++ behind).dropWhile Char.isLower = behind := by
    rw [List.dropWhile_append_of_pos small]
    rcases parted with none | blank
    · rw [none, List.dropWhile_nil]
    · rcases List.head?_eq_some_iff.1 blank with ⟨rest, same⟩
      rw [same, List.dropWhile_cons_of_neg (by decide)]
  have unworded : behind.head?.any Text.isWord = false := by
    rcases parted with none | blank
    · rw [none, List.head?_nil, Option.any_none]
    · rw [blank, Option.any_some]
      decide
  cases letters with
  | nil => exact absurd rfl nonempty
  | cons first rest =>
      have letter := small first List.mem_cons_self
      have unindented : ¬(first = ' ' ∨ first = '\t') := by
        rintro (rfl | rfl) <;> cases letter
      have recognised : startsWithMnemonic (first :: (rest ++ behind)) = true := by
        rw [startsWithMnemonic, ← List.cons_append, dropped, unworded, List.cons_append,
          List.head?_cons, Option.any_some, letter]
        rfl
      simp [isInstructionLine, unindented, recognised]

theorem isInstructionLine_instr (instruction : Instr) :
    isInstructionLine ('\t' :: instruction.render.toList) = true := by
  have spelled := Loader.isLower_of_mem_mnemonic instruction
  have nonempty : (Loader.spelling instruction).1.toList ≠ [] :=
    fun empty => spelled.1 (String.toList_eq_nil_iff.1 empty)
  rw [Loader.render_eq_operation]
  cases (Loader.spelling instruction).2 with
  | nil =>
      have alone := isInstructionLine_tab nonempty spelled.2 (.inl rfl)
      rwa [List.append_nil] at alone
  | cons first rest =>
      simp only [operation, String.toList_append, List.append_assoc]
      exact isInstructionLine_tab nonempty spelled.2 (.inr rfl)

/-- A line that starts with a name is no instruction, even if the name is that of one. -/
theorem isInstructionLine_labelled {name : String} (plain : Loader.plainName name = true)
    (behind : List Char) : isInstructionLine (name.toList ++ ':' :: behind) = false := by
  cases spelled : name.toList with
  | nil => rfl
  | cons first rest =>
      have kind := List.all_eq_true.1 plain first (spelled ▸ List.mem_cons_self)
      have unindented : ¬(first = ' ' ∨ first = '\t') := by
        rintro (rfl | rfl) <;> cases kind
      simp [isInstructionLine, unindented]

/-- Exactly the instructions are recognised among plain lines. -/
theorem isInstructionLine_render {line : Line} (plain : Loader.plainLine line = true)
    {body : List Char} (spelled : line.render.toList = body ++ ['\n']) :
    isInstructionLine body = line.isInstr := by
  have known (text : List Char) (same : line.render.toList = text ++ ['\n']) : body = text :=
    List.append_cancel_right (spelled.symm.trans same)
  cases line with
  | label place =>
      rw [known (place.name.toList ++ ':' :: []) (by simp [Line.render])]
      exact isInstructionLine_labelled plain _
  | instr instruction =>
      rw [known ('\t' :: instruction.render.toList) (by simp [Line.render])]
      exact isInstructionLine_instr instruction
  | directive text =>
      simp only [Loader.plainLine, Bool.and_eq_true, decide_eq_true_eq] at plain
      rcases List.head?_eq_some_iff.1 plain.1 with ⟨rest, dotted⟩
      rw [known ('\t' :: text.toList) (by simp [Line.render]), dotted]
      rfl
  | comment text =>
      rw [known ('#' :: ' ' :: text.toList) (by simp [Line.render])]
      rfl
  | word place value =>
      rw [known (place.name.toList ++ ':' :: (" .word " ++ Decimal.render value).toList)
        (by simp [Line.render])]
      exact isInstructionLine_labelled plain _
  | asciiz place text =>
      simp only [Loader.plainLine, Bool.and_eq_true] at plain
      rw [known (place.name.toList ++ ':' :: (" .asciiz \"" ++ text ++ "\"").toList)
        (by simp [Line.render])]
      exact isInstructionLine_labelled plain.1 _

/-- The instructions in a text of plain lines are those among the lines. -/
theorem instructionCount_renderAll {lines : List Line}
    (plain : ∀ line ∈ lines, Loader.plainLine line = true) :
    instructionCount (Line.renderAll lines) = lines.countP Line.isInstr := by
  induction lines with
  | nil => rfl
  | cons line rest ih =>
      rcases Loader.line?_render (plain line List.mem_cons_self) with ⟨body, spelled, -, single, -⟩
      have others := ih fun line member => plain line (List.mem_cons_of_mem _ member)
      rw [instructionCount] at others ⊢
      rw [Loader.splitOn_renderAll_cons spelled single, List.countP_cons, List.countP_cons, others,
        isInstructionLine_render (plain line List.mem_cons_self) spelled]

/-! ### The size of a tree -/

/-- The number of instructions that load or store a variable in the body of a procedure, or in the
main statement: the address of a global word has to be loaded first. -/
def accessSize (owner : Option Procedure) (name : String) : Nat :=
  if owner.any (·.owns name) then 1 else 2

/-- The number of instructions that combine two operands. -/
def Operator.size : Operator → Nat
  | .add | .sub => 1
  | .mul | .div | .mod => 2

section Trees

-- How many parameters the procedure of a name has, and the procedure whose body it is.
variable (params : String → Nat) (owner : Option Procedure)

mutual

/-- The number of instructions of an expression. -/
def Expr.size : Expr → Nat
  | .num _ => 1
  | .var name => accessSize owner name
  | .binary operator left right => left.size + right.size + 4 + operator.size
  | .compare _ left right => left.size + right.size + 5 + 3
  | .call name args => 10 + 4 * params name + Expr.sizeAll args

/-- The number of instructions of expressions. -/
def Expr.sizeAll : List Expr → Nat
  | [] => 0
  | first :: rest => first.size + Expr.sizeAll rest

end

/-- The number of instructions of a condition. -/
def Condition.size (test : Condition) : Nat :=
  test.left.size params owner + test.right.size params owner + 5

mutual

/-- The number of instructions of a statement. -/
def Stmt.size : Stmt → Nat
  | .assign target value => value.size params owner + accessSize owner target
  | .block body => Stmt.sizeAll body
  | .ifThen test body => test.size params owner + body.size + 1
  | .ifElse test thenBranch elseBranch =>
      test.size params owner + (thenBranch.size + elseBranch.size) + 1
  | .loop test body => test.size params owner + body.size + 1
  | .read target => 2 + accessSize owner target
  | .write value => value.size params owner + 6

/-- The number of instructions of statements. -/
def Stmt.sizeAll : List Stmt → Nat
  | [] => 0
  | first :: rest => first.size + Stmt.sizeAll rest

end

end Trees

/-- The number of instructions of a procedure. A local or parameter of its name costs the copy to
the slot of the result. -/
def Procedure.size (params : String → Nat) (procedure : Procedure) : Nat :=
  5 * procedure.locals.length + procedure.body.size params (some procedure) + 1 +
    if procedure.name ∈ procedure.locals ∨ procedure.name ∈ procedure.params then 2 else 0

/-- The number of instructions of procedures. -/
def Procedure.sizeAll (params : String → Nat) : List Procedure → Nat
  | [] => 0
  | first :: rest => first.size params + Procedure.sizeAll params rest

/-- The number of instructions of a program. -/
def Program.size (program : Program) : Nat :=
  program.body.size (Code.arity program.procedures) none + 2 +
    Procedure.sizeAll (Code.arity program.procedures) program.procedures

/-! ### The size of code -/

namespace Code

/-- The number of instructions in code. -/
def size (code : List CodeLine) : Nat :=
  (lines code).countP Line.isInstr

@[simp] theorem size_nil : size [] = 0 := rfl

@[simp] theorem size_cons (first : CodeLine) (rest : List CodeLine) :
    size (first :: rest) = size rest + if first.line.isInstr then 1 else 0 :=
  List.countP_cons

@[simp] theorem size_append (first second : List CodeLine) :
    size (first ++ second) = size first + size second := by
  rw [size, lines_append, List.countP_append, size, size]

@[simp] theorem isInstr_instr (instruction : Instr) : (Line.instr instruction).isInstr = true := rfl

@[simp] theorem isInstr_label (place : Label) : (Line.label place).isInstr = false := rfl

@[simp] theorem size_push (register : Register) : size (push register) = 2 := rfl

@[simp] theorem size_pop (register : Register) : size (pop register) = 2 := rfl

@[simp] theorem size_discard (count : Nat) : size (discard count) = 2 * count := by
  induction count with
  | zero => rfl
  | succ count ih =>
      rw [discard, size_append, ih, size_pop, Nat.mul_succ, Nat.add_comm]

@[simp] theorem size_clearLocals (count : Nat) : size (clearLocals count) = 3 * count := by
  induction count with
  | zero => rfl
  | succ count ih =>
      rw [clearLocals, size_append, ih, Nat.mul_succ, Nat.add_comm]
      rfl

@[simp] theorem size_operate (operator : Operator) : size (operate operator) = operator.size := by
  cases operator <;> rfl

@[simp] theorem size_operands (left right : List CodeLine) :
    size (operands left right) = size left + size right + 4 := by
  simp only [operands, size_append, size_push, size_pop]
  omega

@[simp] theorem size_compare (relation : Comparison) (left right : List CodeLine)
    (otherwise : Label) :
    size (compare relation left right otherwise) = size left + size right + 5 := by
  simp [compare]

@[simp] theorem size_truth (number : Nat) (comparison : List CodeLine) :
    size (truth number comparison) = size comparison + 3 := by
  simp [truth]

@[simp] theorem size_call (name : String) (params : Nat) (arguments : List CodeLine) :
    size (call name params arguments) = 10 + 2 * params + size arguments := by
  simp only [call, size_append, size_push, size_pop, size_discard, size_cons, size_nil, line_instr,
    isInstr_instr, if_true]
  omega

@[simp] theorem size_choose (number : Nat) (test thenBranch elseBranch : List CodeLine) :
    size (choose number test thenBranch elseBranch) =
      size test + (size thenBranch + size elseBranch) + 1 := by
  simp [choose]
  omega

@[simp] theorem size_loop (number : Nat) (test body : List CodeLine) :
    size (loop number test body) = size test + size body + 1 := by
  simp [loop, Nat.add_assoc]

@[simp] theorem size_service (number : Int32) : size (service number) = 2 := rfl

@[simp] theorem size_writeLine : size writeLine = 6 := rfl

/-- The procedure whose frame is used. -/
def owner? (frame : Option Frame) : Option Procedure :=
  frame.map Frame.procedure

@[simp] theorem owner?_deeper (frame : Option Frame) : owner? (deeper frame) = owner? frame := by
  cases frame with
  | none => rfl
  | some frame => rfl

theorem size_access (word : Nat → Register → Instr) (frame : Option Frame) (name : String) :
    size (access word frame name) = accessSize (owner? frame) name := by
  cases frame with
  | none => rfl
  | some frame =>
      have owned : accessSize (owner? (some frame)) name =
          if frame.procedure.owns name = true then 1 else 2 := rfl
      rw [access, Option.bind_some, owned]
      cases slot : frame.offset? name with
      | none =>
          rw [Frame.offset?_eq_none.1 slot]
          rfl
      | some offset =>
          have own : frame.procedure.owns name = true := by
            rw [← Bool.not_eq_false, ← Frame.offset?_eq_none, slot]
            simp
          rw [own]
          rfl

@[simp] theorem size_load (frame : Option Frame) (name : String) :
    size (load frame name) = accessSize (owner? frame) name :=
  size_access _ frame name

@[simp] theorem size_store (frame : Option Frame) (name : String) :
    size (store frame name) = accessSize (owner? frame) name :=
  size_access _ frame name

variable {procedures : List Procedure}

mutual

/-- The code of an expression is as large as its tree says. -/
theorem size_expression (tree : Expr) (sound : Sound procedures tree.parts) (frame : Option Frame)
    (labels : Nat) :
    size (expression procedures frame labels tree) =
      tree.size (arity procedures) (owner? frame) := by
  cases tree with
  | num value => rfl
  | var name =>
      rw [expression, Expr.size]
      exact size_load frame name
  | binary operator left right =>
      rw [Expr.parts, sound_cons, sound_append] at sound
      rw [expression, Expr.size, size_append, size_operands, size_operate,
        size_expression left sound.2.1, size_expression right sound.2.2, owner?_deeper]
  | compare relation left right =>
      rw [Expr.parts, sound_cons, sound_append] at sound
      rw [expression, Expr.size, size_truth, size_compare, size_expression left sound.2.1,
        size_expression right sound.2.2, owner?_deeper]
  | call name args =>
      rw [Expr.parts, sound_cons] at sound
      rw [expression, Expr.size, size_call, size_arguments args _ sound.2 (arity_le sound.1),
        owner?_deeper, owner?_deeper]
      omega

/-- The code of the arguments of a call has a push for each parameter. -/
theorem size_arguments (args : List Expr) (params : Nat)
    (sound : Sound procedures (Expr.partsAll args)) (enough : params ≤ args.length)
    (frame : Option Frame) (labels : Nat) :
    size (arguments procedures frame labels params args) =
      2 * params + Expr.sizeAll (arity procedures) (owner? frame) args := by
  cases args with
  | nil =>
      obtain rfl : params = 0 := Nat.le_zero.mp enough
      rfl
  | cons first rest =>
      rw [Expr.partsAll, sound_append] at sound
      cases params with
      | zero =>
          rw [arguments, Expr.sizeAll, size_append, size_expression first sound.1,
            size_arguments rest 0 sound.2 (Nat.zero_le _)]
          omega
      | succ params =>
          rw [List.length_cons] at enough
          rw [arguments, Expr.sizeAll, size_append, size_append, size_push,
            size_expression first sound.1,
            size_arguments rest params sound.2 (Nat.le_of_succ_le_succ enough), owner?_deeper]
          omega

end

theorem size_condition (test : Condition) (sound : Sound procedures test.parts)
    (frame : Option Frame) (labels : Nat) (otherwise : Label) :
    size (condition procedures frame labels test otherwise) =
      test.size (arity procedures) (owner? frame) := by
  rw [Condition.parts, sound_append] at sound
  rw [condition, size_compare, size_expression test.left sound.1,
    size_expression test.right sound.2, owner?_deeper, Condition.size]

mutual

/-- The code of a statement is as large as its tree says. -/
theorem size_statement (tree : Stmt) (sound : Sound procedures tree.expressions)
    (frame : Option Frame) (labels : Nat) :
    size (statement procedures frame labels tree) =
      tree.size (arity procedures) (owner? frame) := by
  cases tree with
  | assign target value =>
      rw [statement, Stmt.size, size_append, size_expression value sound, size_store]
  | block body =>
      rw [statement, Stmt.size]
      exact size_statements body sound frame labels
  | ifThen test body =>
      rw [Stmt.expressions, sound_append] at sound
      rw [statement, Stmt.size, size_choose, size_condition test sound.1,
        size_statement body sound.2]
      rfl
  | ifElse test thenBranch elseBranch =>
      rw [Stmt.expressions, sound_append, sound_append] at sound
      rw [statement, Stmt.size, size_choose, size_condition test sound.1.1,
        size_statement thenBranch sound.1.2, size_statement elseBranch sound.2]
  | loop test body =>
      rw [Stmt.expressions, sound_append] at sound
      rw [statement, Stmt.size, size_loop, size_condition test sound.1, size_statement body sound.2]
  | read target => rw [statement, Stmt.size, size_append, size_service, size_store]
  | write value =>
      rw [statement, Stmt.size, size_append, size_expression value sound, size_writeLine]

theorem size_statements (trees : List Stmt) (sound : Sound procedures (Stmt.expressionsAll trees))
    (frame : Option Frame) (labels : Nat) :
    size (statements procedures frame labels trees) =
      Stmt.sizeAll (arity procedures) (owner? frame) trees := by
  cases trees with
  | nil => rfl
  | cons first rest =>
      rw [Stmt.expressionsAll, sound_append] at sound
      rw [statements, Stmt.sizeAll, size_append, size_statement first sound.1,
        size_statements rest sound.2]

end

/-- The copy of the result needs a load from a slot and a store to one. -/
theorem size_copyResult (procedure : Procedure) :
    size (copyResult procedure) =
      if procedure.name ∈ procedure.locals ∨ procedure.name ∈ procedure.params then 2 else 0 := by
  have own : accessSize (some procedure) procedure.name = 1 := by simp [accessSize, Procedure.owns]
  simp only [copyResult, List.contains_iff_mem, List.mem_append]
  split
  · rw [size_append, size_load]
    exact congrArg (· + 1) own
  · rfl

theorem size_procedure (procedure : Procedure)
    (sound : Sound procedures procedure.body.expressions) (labels : Nat) :
    size (Code.procedure procedures labels procedure) = procedure.size (arity procedures) := by
  simp only [Code.procedure, size_append, size_cons, size_nil, line_label, line_instr,
    isInstr_label, isInstr_instr, size_clearLocals, size_statement procedure.body sound,
    size_copyResult, size_discard, Procedure.size, owner?, Option.map_some]
  simp only [Bool.false_eq_true, if_false, if_true]
  omega

theorem size_bodies (bodies : List Procedure)
    (sound : ∀ procedure ∈ bodies, Sound procedures procedure.body.expressions) (labels : Nat) :
    size (Code.bodies procedures labels bodies) =
      Procedure.sizeAll (arity procedures) bodies := by
  induction bodies generalizing labels with
  | nil => rfl
  | cons first rest ih =>
      rw [Code.bodies, size_append, size_procedure first (sound first List.mem_cons_self),
        ih fun procedure member => sound procedure (List.mem_cons_of_mem _ member),
        Procedure.sizeAll]

/-- If no two procedures have the same name, their order does not matter to their calls. -/
theorem arity_reverse (distinct : (procedures.map Procedure.name).Nodup) :
    arity procedures.reverse = arity procedures := by
  have distinct' : (procedures.reverse.map Procedure.name).Nodup := by
    rw [List.map_reverse, List.nodup_reverse]
    exact distinct
  funext name
  have same : procedures.reverse.find? (·.name = name) = procedures.find? (·.name = name) := by
    apply Option.ext
    intro procedure
    rw [find?_reverse_eq_some distinct, ← List.mem_reverse, ← find?_reverse_eq_some distinct',
      List.reverse_reverse]
  rw [arity, same, arity]

theorem size_program {program : Program} (fault : program.fault? = none) :
    size (Code.program program) = program.size := by
  have heading : size [⟨.directive ".text", none⟩, ⟨.directive ".globl main", none⟩, label .main] =
      0 := rfl
  rw [Code.program, size_append, size_append, size_append, heading, Nat.zero_add, size_service,
    size_statement program.body (sound_body fault),
    size_bodies program.procedures (sound_bodies fault),
    arity_reverse (fault?_eq_none_iff.1 fault).distinct]
  rfl

end Code

/-- The instructions counted in the text of a program's assembly are as many as the tree of the
program says. -/
theorem instructionCount_compile {program : Program} {text : String} (named : program.Named)
    (compiled : compile program = .ok text) : instructionCount text = program.size := by
  rcases compile_eq_ok.1 compiled with ⟨fault, rfl⟩
  have data : (Generator.dataLines program).countP Line.isInstr = 0 := by
    simp [Generator.dataLines, Line.isInstr]
  rw [instructionCount_renderAll (plainLine_linesOf named), linesOf, List.countP_append, data,
    Nat.zero_add]
  exact Code.size_program fault

/-- A program whose names are those of instructions, with a parameter named like its procedure, a
call with more arguments than parameters and a comparison as a value. -/
def mnemonicProgram : Program where
  globals := ["syscall", "lw"]
  procedures := [
    { name := "jal", params := ["jal", "li"], locals := ["move", "sw"],
      body := .block [
        .ifElse ⟨.ge, .var "li", .num (-7)⟩
          (.assign "move" (.binary .mod (.var "lw") (.var "sw")))
          (.read "syscall"),
        .assign "jal" (.compare .ne (.var "move") (.num 0))] }]
  body := .loop ⟨.lt, .var "lw", .num 3⟩ (.block [
    .assign "lw" (.binary .add (.var "lw")
      (.call "jal" [.num 1, .var "syscall", .binary .mul (.var "addu") (.num 2)])),
    .ifThen ⟨.eq, .var "lw", .num 0⟩ (.read "lw"),
    .write (.var "lw")])

theorem instructionCount_compile_mnemonicProgram :
    mnemonicProgram.Named ∧
      compile mnemonicProgram = .ok (Line.renderAll (linesOf mnemonicProgram)) ∧
      instructionCount (Line.renderAll (linesOf mnemonicProgram)) = mnemonicProgram.size ∧
      mnemonicProgram.size = 117 := by
  have named : mnemonicProgram.Named := by
    unfold Program.Named
    decide
  have compiled := compile_eq_ok.2 ⟨(rfl : mnemonicProgram.fault? = none), rfl⟩
  exact ⟨named, compiled, instructionCount_compile named compiled, by decide⟩

end MiniPascal
