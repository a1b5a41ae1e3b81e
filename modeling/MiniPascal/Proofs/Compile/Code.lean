import MiniPascal.Compile.Program

/-!
# Code as a list

A generator appends lines to its state. The functions of this module give the same lines as
lists, by recursion on the tree, from what the lines depend on: the known procedures, the frame
of the procedure being compiled and the count of labels given out so far.

A line that accesses a word of a frame other than the top of the stack carries a mark that says
which word it was written for. The marks are no part of the output.
-/

namespace MiniPascal

/-- The word of a frame for which a line was written: that of a name, or the slot of the
result. -/
inductive SlotUse where
  | variable (procedure : Procedure) (name : String)
  | result (procedure : Procedure)

/-- A line of code with its mark. -/
structure CodeLine where
  line : Line
  use : Option SlotUse := none

mutual

/-- How many numbers the labels in the code of an expression use up. -/
def Expr.labelCount : Expr → Nat
  | .num _ => 0
  | .var _ => 0
  | .binary _ left right => left.labelCount + right.labelCount
  | .compare _ left right => 1 + left.labelCount + right.labelCount
  | .call _ args => Expr.labelCountAll args

/-- How many numbers the labels in the code of expressions use up. -/
def Expr.labelCountAll : List Expr → Nat
  | [] => 0
  | first :: rest => first.labelCount + Expr.labelCountAll rest

end

/-- How many numbers the labels in the code of a condition use up. -/
def Condition.labelCount (condition : Condition) : Nat :=
  condition.left.labelCount + condition.right.labelCount

mutual

/-- How many numbers the labels in the code of a statement use up. -/
def Stmt.labelCount : Stmt → Nat
  | .assign _ value => value.labelCount
  | .block body => Stmt.labelCountAll body
  | .ifThen test body => 1 + test.labelCount + body.labelCount
  | .ifElse test thenBranch elseBranch =>
      1 + test.labelCount + thenBranch.labelCount + elseBranch.labelCount
  | .loop test body => 1 + test.labelCount + body.labelCount
  | .read _ => 0
  | .write value => value.labelCount

/-- How many numbers the labels in the code of statements use up. -/
def Stmt.labelCountAll : List Stmt → Nat
  | [] => 0
  | first :: rest => first.labelCount + Stmt.labelCountAll rest

end

namespace Code

/-- A line with an instruction that uses no word of a frame. -/
def instr (instruction : Instr) : CodeLine where
  line := .instr instruction

/-- A line with a label. -/
def label (place : Label) : CodeLine where
  line := .label place

/-- Pushes a register on the stack. -/
def push (register : Register) : List CodeLine :=
  [instr (.addiu .stackPointer .stackPointer (-4)), instr (.sw register 0 .stackPointer)]

/-- Pops the top of the stack into a register. -/
def pop (register : Register) : List CodeLine :=
  [instr (.lw register 0 .stackPointer), instr (.addiu .stackPointer .stackPointer 4)]

/-- Pops the accumulator a number of times. -/
def discard : Nat → List CodeLine
  | 0 => []
  | count + 1 => pop .accumulator ++ discard count

/-- Applies `word` to the slot of a variable or to its global word. -/
def access (word : Nat → Register → Instr) (frame : Option Frame) (name : String) :
    List CodeLine :=
  match frame.bind fun frame => (frame.offset? name).map (frame.procedure, ·) with
  | some (procedure, offset) =>
      [⟨.instr (word offset .stackPointer), some (.variable procedure name)⟩]
  | none => [instr (.la .scratch (.global name)), instr (word 0 .scratch)]

/-- Loads a variable. -/
def load : Option Frame → String → List CodeLine :=
  access (.lw .accumulator)

/-- Stores to a variable. -/
def store : Option Frame → String → List CodeLine :=
  access (.sw .accumulator)

/-- Combines the scratch register and the accumulator by an operator. -/
def operate : Operator → List CodeLine
  | .add => [instr (.addu .accumulator .scratch .accumulator)]
  | .sub => [instr (.subu .accumulator .scratch .accumulator)]
  | .mul => [instr (.mult .scratch .accumulator), instr (.mflo .accumulator)]
  | .div => [instr (.div .scratch .accumulator), instr (.mflo .accumulator)]
  | .mod => [instr (.div .scratch .accumulator), instr (.mfhi .accumulator)]

/-- The code of two operands. -/
def operands (left right : List CodeLine) : List CodeLine :=
  left ++ push .accumulator ++ right ++ pop .scratch

/-- The code of a comparison with a branch for when it does not hold. -/
def compare (relation : Comparison) (left right : List CodeLine) (otherwise : Label) :
    List CodeLine :=
  operands left right ++ [instr (.branch relation.negate .scratch .accumulator otherwise)]

/-- The code that turns a comparison into a value. -/
def truth (number : Nat) (comparison : List CodeLine) : List CodeLine :=
  comparison ++
    [instr (.li .accumulator 1), instr (.j (.numbered "done" number)),
      label (.numbered "false" number), instr (.li .accumulator 0),
      label (.numbered "done" number)]

/-- How many words a call of a procedure pushes for its parameters. -/
def arity (procedures : List Procedure) (name : String) : Nat :=
  ((procedures.find? (·.name = name)).map (·.params.length)).getD 0

/-- The code of a call around that of its arguments. -/
def call (name : String) (params : Nat) (arguments : List CodeLine) : List CodeLine :=
  push .returnAddress ++ [instr (.li .accumulator 0)] ++ push .accumulator ++ arguments ++
    [instr (.jal (.procedure name))] ++ discard params ++ pop .accumulator ++ pop .returnAddress

/-- A frame with one more temporary word; the main statement has none. -/
def deeper (frame : Option Frame) : Option Frame :=
  frame.map Frame.push

/-- A frame with a number of temporary words more. -/
def deepen : Nat → Option Frame → Option Frame
  | 0, frame => frame
  | count + 1, frame => deepen count (deeper frame)

theorem deepen_succ (count : Nat) (frame : Option Frame) :
    deepen (count + 1) frame = deeper (deepen count frame) := by
  induction count generalizing frame with
  | zero => rfl
  | succ count ih => exact ih (deeper frame)

@[simp] theorem deepen_none (count : Nat) : deepen count none = none := by
  induction count with
  | zero => rfl
  | succ count ih => exact ih

mutual

/-- The code of an expression. -/
def expression (procedures : List Procedure) (frame : Option Frame) (labels : Nat) :
    Expr → List CodeLine
  | .num value => [instr (.li .accumulator value)]
  | .var name => load frame name
  | .binary operator left right =>
      operands (expression procedures frame labels left)
        (expression procedures (deeper frame) (labels + left.labelCount) right) ++
      operate operator
  | .compare relation left right =>
      truth (labels + 1)
        (compare relation (expression procedures frame (labels + 1) left)
          (expression procedures (deeper frame) (labels + 1 + left.labelCount) right)
          (.numbered "false" (labels + 1)))
  | .call name args =>
      call name (arity procedures name)
        (arguments procedures (deeper (deeper frame)) labels (arity procedures name) args)

/-- The code of the arguments of a call. -/
def arguments (procedures : List Procedure) (frame : Option Frame) (labels : Nat) :
    Nat → List Expr → List CodeLine
  | _, [] => []
  | 0, first :: rest =>
      expression procedures frame labels first ++
        arguments procedures frame (labels + first.labelCount) 0 rest
  | params + 1, first :: rest =>
      expression procedures frame labels first ++ push .accumulator ++
        arguments procedures (deeper frame) (labels + first.labelCount) params rest

end

/-- The code of a condition. -/
def condition (procedures : List Procedure) (frame : Option Frame) (labels : Nat)
    (test : Condition) (otherwise : Label) : List CodeLine :=
  compare test.relation (expression procedures frame labels test.left)
    (expression procedures (deeper frame) (labels + test.left.labelCount) test.right) otherwise

/-- The code of a choice between two branches. -/
def choose (number : Nat) (test thenBranch elseBranch : List CodeLine) : List CodeLine :=
  test ++ thenBranch ++
    [instr (.j (.numbered "endif" number)), label (.numbered "else" number)] ++
    elseBranch ++ [label (.numbered "endif" number)]

/-- The code of a loop. -/
def loop (number : Nat) (test body : List CodeLine) : List CodeLine :=
  [label (.numbered "loop" number)] ++ test ++ body ++
    [instr (.j (.numbered "loop" number)), label (.numbered "endloop" number)]

/-- Asks the system for a service. -/
def service (number : Int32) : List CodeLine :=
  [instr (.li .accumulator number), instr .syscall]

/-- Writes the accumulator on a line of its own. -/
def writeLine : List CodeLine :=
  [instr (.move .argument .accumulator)] ++ service Generator.printInteger ++
    [instr (.la .argument .newLine)] ++ service Generator.printText

mutual

/-- The code of a statement. -/
def statement (procedures : List Procedure) (frame : Option Frame) (labels : Nat) :
    Stmt → List CodeLine
  | .assign target value => expression procedures frame labels value ++ store frame target
  | .block body => statements procedures frame labels body
  | .ifThen test body =>
      choose (labels + 1)
        (condition procedures frame (labels + 1) test (.numbered "else" (labels + 1)))
        (statement procedures frame (labels + 1 + test.labelCount) body) []
  | .ifElse test thenBranch elseBranch =>
      choose (labels + 1)
        (condition procedures frame (labels + 1) test (.numbered "else" (labels + 1)))
        (statement procedures frame (labels + 1 + test.labelCount) thenBranch)
        (statement procedures frame (labels + 1 + test.labelCount + thenBranch.labelCount)
          elseBranch)
  | .loop test body =>
      loop (labels + 1)
        (condition procedures frame (labels + 1) test (.numbered "endloop" (labels + 1)))
        (statement procedures frame (labels + 1 + test.labelCount) body)
  | .read target => service Generator.readInteger ++ store frame target
  | .write value => expression procedures frame labels value ++ writeLine

/-- The code of statements, in order. -/
def statements (procedures : List Procedure) (frame : Option Frame) (labels : Nat) :
    List Stmt → List CodeLine
  | [] => []
  | first :: rest =>
      statement procedures frame labels first ++
        statements procedures frame (labels + first.labelCount) rest

end

/-- Pushes a zero for each local. -/
def clearLocals : Nat → List CodeLine
  | 0 => []
  | count + 1 => [instr (.li .accumulator 0)] ++ push .accumulator ++ clearLocals count

/-- Copies a local or parameter named like its procedure to the slot of the result. -/
def copyResult (procedure : Procedure) : List CodeLine :=
  if (procedure.locals ++ procedure.params).contains procedure.name then
    load (some { procedure }) procedure.name ++
      [⟨.instr (.sw .accumulator (Frame.returnSlot { procedure }) .stackPointer),
        some (.result procedure)⟩]
  else []

/-- The code of a procedure. -/
def procedure (procedures : List Procedure) (labels : Nat) (procedure : Procedure) :
    List CodeLine :=
  [label (.procedure procedure.name)] ++ clearLocals procedure.locals.length ++
    statement procedures (some { procedure }) labels procedure.body ++ copyResult procedure ++
    discard procedure.locals.length ++ [instr (.jr .returnAddress)]

/-- The code of procedures that all know `procedures`, in order. -/
def bodies (procedures : List Procedure) (labels : Nat) : List Procedure → List CodeLine
  | [] => []
  | first :: rest =>
      procedure procedures labels first ++
        bodies procedures (labels + first.body.labelCount) rest

/-- The code of a program. -/
def program (program : Program) : List CodeLine :=
  [⟨.directive ".text", none⟩, ⟨.directive ".globl main", none⟩, label .main] ++
    statement program.procedures.reverse none 0 program.body ++ service Generator.exit ++
    bodies program.procedures.reverse program.body.labelCount program.procedures

/-- The lines of marked code. -/
def lines (code : List CodeLine) : List Line :=
  code.map CodeLine.line

@[simp] theorem lines_nil : lines [] = [] := rfl

@[simp] theorem lines_cons (first : CodeLine) (rest : List CodeLine) :
    lines (first :: rest) = first.line :: lines rest := rfl

@[simp] theorem lines_append (first second : List CodeLine) :
    lines (first ++ second) = lines first ++ lines second :=
  List.map_append

end Code

/-- The lines of a program's data and code. -/
def linesOf (program : Program) : List Line :=
  Generator.dataLines program ++ Code.lines (Code.program program)

end MiniPascal
