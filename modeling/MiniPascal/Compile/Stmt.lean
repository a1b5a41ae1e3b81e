import MiniPascal.Compile.Expr

/-!
# Code of statements

Each choice and each loop takes a fresh number for its labels. The stack is the same before and
after the code of a statement.
-/

namespace MiniPascal.Generator

/-- Asks the system for a service. -/
def service (number : Int32) : Gen Unit := do
  instr (.li .accumulator number)
  instr .syscall

/-- The service that prints a number. -/
def printInteger : Int32 := 1

/-- The service that prints a text. -/
def printText : Int32 := 4

/-- The service that reads a number. -/
def readInteger : Int32 := 5

/-- The service that ends the program. -/
def exit : Int32 := 10

/-- The code of a choice between two branches. -/
def choose (test : Condition) (thenBranch elseBranch : Gen Unit) : Gen Unit := do
  let number ← freshLabel
  condition test (.numbered "else" number)
  thenBranch
  instr (.j (.numbered "endif" number))
  emit (.label (.numbered "else" number))
  elseBranch
  emit (.label (.numbered "endif" number))

/-- The code of a loop. -/
def loop (test : Condition) (body : Gen Unit) : Gen Unit := do
  let number ← freshLabel
  emit (.label (.numbered "loop" number))
  condition test (.numbered "endloop" number)
  body
  instr (.j (.numbered "loop" number))
  emit (.label (.numbered "endloop" number))

/-- The code that writes the accumulator on a line of its own. -/
def writeLine : Gen Unit := do
  instr (.move .argument .accumulator)
  service printInteger
  instr (.la .argument .newLine)
  service printText

mutual

/-- The code of a statement. -/
def statement : Stmt → Gen Unit
  | .assign target value => do
      expression value
      store target
  | .block body => statements body
  | .ifThen test body => choose test (statement body) (pure ())
  | .ifElse test thenBranch elseBranch =>
      choose test (statement thenBranch) (statement elseBranch)
  | .loop test body => loop test (statement body)
  | .read target => do
      service readInteger
      store target
  | .write value => do
      expression value
      writeLine

/-- The code of statements, in order. -/
def statements : List Stmt → Gen Unit
  | [] => pure ()
  | first :: rest => do
      statement first
      statements rest

end

end MiniPascal.Generator
