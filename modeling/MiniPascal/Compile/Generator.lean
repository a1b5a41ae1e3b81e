import MiniPascal.Assembly.Basic
import MiniPascal.Compile.Frame

/-!
# The state of code generation

Lines of data and of code, the count of labels given out, the known procedures, and the frame of
the procedure being compiled; the main statement has none. A failing step keeps what it has
produced so far.
-/

namespace MiniPascal

/-- The state of code generation. Procedures are listed newest first. -/
structure Generator where
  labels : Nat := 0
  data : Array Line := #[]
  code : Array Line := #[]
  frame : Option Frame := none
  procedures : List Procedure := []

/-- A step of code generation. It leaves a state also when it fails. -/
abbrev Gen (α : Type) := EStateM Error Generator α

namespace Generator

/-- All lines: the data in front of the code. -/
def lines (generator : Generator) : List Line :=
  generator.data.toList ++ generator.code.toList

/-- The text of all lines. -/
def text (generator : Generator) : String :=
  Line.renderAll generator.lines

/-- How many temporary words are on the stack of the procedure being compiled. -/
def height (generator : Generator) : Nat :=
  (generator.frame.map (·.height)).getD 0

/-- Where a name stands in the frame of the procedure being compiled. -/
def offset? (generator : Generator) (name : String) : Option Nat :=
  generator.frame.bind (·.offset? name)

/-- The procedure known under a name. -/
def procedure? (generator : Generator) (name : String) : Option Procedure :=
  generator.procedures.find? (·.name = name)

/-- Adds a line of code. -/
def emit (line : Line) : Gen Unit :=
  modify fun generator => { generator with code := generator.code.push line }

/-- Adds an instruction. -/
def instr (instruction : Instr) : Gen Unit :=
  emit (.instr instruction)

/-- Gives a number that no label has. -/
def freshLabel : Gen Nat := do
  let number := (← get).labels + 1
  modify fun generator => { generator with labels := number }
  return number

/-- Lays out the frame of a procedure. -/
def enter (procedure : Procedure) : Gen Unit :=
  modify fun generator => { generator with frame := some { procedure } }

/-- Drops the frame and gives it. -/
def leave : Gen (Option Frame) := do
  let frame := (← get).frame
  modify fun generator => { generator with frame := none }
  return frame

/-- Pushes a register on the stack. -/
def push (register : Register) : Gen Unit := do
  modify fun generator => { generator with frame := generator.frame.map Frame.push }
  instr (.addiu .stackPointer .stackPointer (-4))
  instr (.sw register 0 .stackPointer)

/-- Pops the top of the stack into a register. -/
def pop (register : Register) : Gen Unit := do
  match (← get).frame with
  | none => pure ()
  | some frame =>
      match frame.pop with
      | .ok frame => modify fun generator => { generator with frame := some frame }
      | .error cause => throw cause
  instr (.lw register 0 .stackPointer)
  instr (.addiu .stackPointer .stackPointer 4)

/-- Loads a variable from its slot or from its global word. -/
def load (name : String) : Gen Unit := do
  match (← get).offset? name with
  | some offset => instr (.lw .accumulator offset .stackPointer)
  | none =>
      instr (.la .scratch (.global name))
      instr (.lw .accumulator 0 .scratch)

/-- Stores to a variable in its slot or in its global word. -/
def store (name : String) : Gen Unit := do
  match (← get).offset? name with
  | some offset => instr (.sw .accumulator offset .stackPointer)
  | none =>
      instr (.la .scratch (.global name))
      instr (.sw .accumulator 0 .scratch)

/-- The procedure that a call with a number of arguments means. More arguments than parameters
are allowed. -/
def callee (name : String) (arguments : Nat) : Gen Procedure := do
  match (← get).procedure? name with
  | none => throw (.undefinedProcedure name)
  | some procedure =>
      if arguments < procedure.params.length then
        throw (.arity name procedure.params.length arguments)
      return procedure

end Generator

end MiniPascal
