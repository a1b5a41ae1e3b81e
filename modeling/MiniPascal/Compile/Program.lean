import MiniPascal.Compile.Stmt
import MiniPascal.Tree.Names

/-!
# Code of procedures and programs

A procedure pushes a zero for each local, runs its body, drops the locals and returns. A program
is its data, its main statement and its procedures.
-/

namespace MiniPascal

/-- The error of words that a procedure's code leaves on the stack. -/
def Error.temporariesLeft (count : Nat) (procedure : String) : Error :=
  .generation s!"{count} temporaries left on the stack at the end of procedure '{procedure}'"

/-- The error of two procedures of one name. -/
def Error.duplicateProcedure (name : String) : Error :=
  .generation s!"procedure '{name}' is declared more than once"

namespace Generator

/-- Copies a local or parameter named like its procedure to the slot of the result, for it is the
variable whose last value a call gives. -/
def copyResult (procedure : Procedure) : Gen Unit := do
  if (procedure.locals ++ procedure.params).contains procedure.name then
    match (← get).frame with
    | none => pure ()
    | some frame =>
        load procedure.name
        instr (.sw .accumulator frame.returnSlot .stackPointer)

/-- The code that pushes zeros for locals. -/
def clearLocals : Nat → Gen Unit
  | 0 => pure ()
  | count + 1 => do
      instr (.li .accumulator 0)
      push .accumulator
      clearLocals count

/-- The code of a procedure. -/
def procedure (procedure : Procedure) : Gen Unit := do
  emit (.label (.procedure procedure.name))
  clearLocals procedure.locals.length
  enter procedure
  statement procedure.body
  copyResult procedure
  if let some frame ← leave then
    if frame.height ≠ 0 then
      throw (.temporariesLeft frame.height procedure.name)
  discard procedure.locals.length
  instr (.jr .returnAddress)

/-- Makes a procedure known. A second one of the same name takes the place of the first, and is an
error. -/
def register (procedure : Procedure) : Gen Unit := do
  let known := ((← get).procedure? procedure.name).isSome
  modify fun generator => { generator with procedures := procedure :: generator.procedures }
  if known then
    throw (.duplicateProcedure procedure.name)

/-- The data of a program: the text that ends a line, and a word for each global name. -/
def dataLines (program : Program) : List Line :=
  [.comment "MIPS code generated by mipas 0.1.0", .directive ".data", .asciiz .newLine "\\n"] ++
    program.globalNames.map fun name => .word (.global name) 0

/-- The code of a program. -/
def program (program : Program) : Gen Unit := do
  program.procedures.forM register
  modify fun generator => { generator with data := generator.data ++ dataLines program }
  emit (.directive ".text")
  emit (.directive ".globl main")
  emit (.label .main)
  statement program.body
  service exit
  program.procedures.forM procedure

end Generator

/-- The lines of a program's assembly. -/
def assemble (program : Program) : Except Error (List Line) :=
  match (Generator.program program).run {} with
  | .ok _ generator => .ok generator.lines
  | .error cause _ => .error cause

/-- The text of a program's assembly. -/
def compile (program : Program) : Except Error String :=
  (assemble program).map Line.renderAll

end MiniPascal
