import MiniPascal.Compile.Generator

/-!
# Code of expressions

The code of an expression leaves its value in the accumulator and the stack as it was. For two
operands the left one waits on the stack and ends in the scratch register.
-/

namespace MiniPascal.Generator

/-- Combines the scratch register and the accumulator by an operator. -/
def operate : Operator → Gen Unit
  | .add => instr (.addu .accumulator .scratch .accumulator)
  | .sub => instr (.subu .accumulator .scratch .accumulator)
  | .mul => do
      instr (.mult .scratch .accumulator)
      instr (.mflo .accumulator)
  | .div => do
      instr (.div .scratch .accumulator)
      instr (.mflo .accumulator)
  | .mod => do
      instr (.div .scratch .accumulator)
      instr (.mfhi .accumulator)

/-- The code of two operands: the left one ends in the scratch register, the right one in the
accumulator. -/
def operands (left right : Gen Unit) : Gen Unit := do
  left
  push .accumulator
  right
  pop .scratch

/-- The code of a comparison: a branch to `otherwise` that is taken when it does not hold. -/
def compare (relation : Comparison) (left right : Gen Unit) (otherwise : Label) : Gen Unit := do
  operands left right
  instr (.branch relation.negate .scratch .accumulator otherwise)

/-- Pops the accumulator a number of times. -/
def discard : Nat → Gen Unit
  | 0 => pure ()
  | count + 1 => do
      pop .accumulator
      discard count

mutual

/-- The code of an expression. A call pushes the return address, a zero for the result and one word
for each parameter. -/
def expression : Expr → Gen Unit
  | .num value => instr (.li .accumulator value)
  | .var name => load name
  | .binary operator left right => do
      operands (expression left) (expression right)
      operate operator
  | .compare relation left right => do
      let number ← freshLabel
      compare relation (expression left) (expression right) (.numbered "false" number)
      instr (.li .accumulator 1)
      instr (.j (.numbered "done" number))
      emit (.label (.numbered "false" number))
      instr (.li .accumulator 0)
      emit (.label (.numbered "done" number))
  | .call name args => do
      let procedure ← callee name args.length
      push .returnAddress
      instr (.li .accumulator 0)
      push .accumulator
      arguments procedure.params.length args
      instr (.jal (.procedure name))
      discard procedure.params.length
      pop .accumulator
      pop .returnAddress

/-- The code of the arguments of a call. Arguments beyond the parameters are computed and not
pushed. -/
def arguments : Nat → List Expr → Gen Unit
  | _, [] => pure ()
  | 0, first :: rest => do
      expression first
      arguments 0 rest
  | params + 1, first :: rest => do
      expression first
      push .accumulator
      arguments params rest

end

/-- The code of a call. -/
def call (name : String) (args : List Expr) : Gen Unit :=
  expression (.call name args)

/-- The code of a condition, with a branch to `otherwise` for when it does not hold. -/
def condition (test : Condition) (otherwise : Label) : Gen Unit :=
  compare test.relation (expression test.left) (expression test.right) otherwise

end MiniPascal.Generator
