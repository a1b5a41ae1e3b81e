import MiniPascal.Run.Environment
import MiniPascal.Run.Stream

/-!
# Running programs

Expressions and statements are evaluated by recursion on the tree, given a way to call a
procedure; `Interpreter.invoke` is that way, by recursion on fuel. Fuel bounds how deep calls nest
and how often each loop repeats, and running out of it is an outcome of its own. An error leaves
the interpreter as it was when the error arose, but with every unfinished call ended.
-/

namespace MiniPascal

/-- Why a run stops early. -/
inductive Halt where
  | error (cause : Error)
  | outOfFuel
  deriving DecidableEq, Repr

/-- The state of a running program. -/
structure Interpreter where
  environment : Environment := {}
  input : Input := []
  output : Output := {}

namespace Interpreter

/-- A computation on the state of a running program. It leaves a state also when it stops early. -/
abbrev Exec (α : Type) := EStateM Halt Interpreter α

/-- Gives a value or stops with an error. -/
def ofExcept {α : Type} : Except Error α → Exec α
  | .ok value => pure value
  | .error cause => throw (.error cause)

/-- Does what may fail, and leaves its state in either case. -/
def attempt {α : Type} (step : Interpreter → Except Error α × Interpreter) : Exec α := do
  ofExcept (← modifyGet step)

/-- Reads a variable. -/
def readVariable (name : String) : Exec Int32 :=
  modifyGet fun state =>
    let (value, environment) := state.environment.get name
    (value, { state with environment })

/-- Assigns to a variable. -/
def assign (name : String) (value : Int32) : Exec Unit :=
  modify fun state => { state with environment := state.environment.set name value }

/-- Binds a variable in the current scope. -/
def declare (name : String) (value : Int32) : Exec Unit :=
  modify fun state => { state with environment := state.environment.declare name value }

/-- Takes the value of a line of input. -/
def readInteger : Exec Int32 :=
  attempt fun state =>
    let (result, input) := state.input.readInteger
    (result, { state with input })

/-- Writes a value and a line end. -/
def writeLine (value : Int32) : Exec Unit :=
  attempt fun state =>
    let (result, output) := state.output.write (Decimal.render value ++ "\n")
    (result, { state with output })

/-- The procedure that a call with a number of arguments means. More arguments than parameters
are allowed. -/
def callee (name : String) (arguments : Nat) : Exec Procedure := do
  let procedure ← ofExcept ((← get).environment.procedure name)
  if arguments < procedure.params.length then
    throw (.error (.arity name procedure.params.length arguments))
  return procedure

/-- Runs the body of a call in its own scope and gives the last value of `name` there. The scope of
the caller is current again afterwards, however the body ends. -/
def inScope (frame : Scope) (name : String) (body : Exec Unit) : Exec Int32 := fun state =>
  let (caller, environment) := state.environment.enter frame
  match body.run { state with environment } with
  | .ok _ after =>
      let (finished, environment) := after.environment.leave caller
      .ok (finished[name]?.getD 0) { after with environment }
  | .error halt after =>
      .error halt { after with environment := (after.environment.leave caller).2 }

/-- How a procedure is called with the values of its arguments. -/
abbrev Invoke := Procedure → List Int32 → Exec Int32

mutual

/-- The value of an expression. Operands and arguments are evaluated from left to right, and a call
is checked before its arguments are evaluated. -/
def evaluateWith (invoke : Invoke) : Expr → Exec Int32
  | .num value => pure value
  | .var name => readVariable name
  | .binary operator left right => do
      let first ← evaluateWith invoke left
      let second ← evaluateWith invoke right
      ofExcept (operator.apply first second)
  | .compare relation left right => do
      let first ← evaluateWith invoke left
      let second ← evaluateWith invoke right
      return if relation.holds first second then 1 else 0
  | .call name args => do
      let procedure ← callee name args.length
      let values ← evaluateAllWith invoke args
      invoke procedure values

/-- The values of expressions, in order. -/
def evaluateAllWith (invoke : Invoke) : List Expr → Exec (List Int32)
  | [] => pure []
  | first :: rest => do
      let value ← evaluateWith invoke first
      let values ← evaluateAllWith invoke rest
      return value :: values

end

/-- Whether a condition holds. -/
def testWith (invoke : Invoke) (condition : Condition) : Exec Bool := do
  let left ← evaluateWith invoke condition.left
  let right ← evaluateWith invoke condition.right
  return condition.relation.holds left right

/-- Runs `body` as long as `test` holds. -/
def repeatWhile : Nat → Exec Bool → Exec Unit → Exec Unit
  | 0, _, _ => throw .outOfFuel
  | fuel + 1, test, body => do
      if ← test then
        body
        repeatWhile fuel test body

mutual

/-- Runs a statement. A value that is read from the input always goes to the current scope. -/
def executeWith (invoke : Invoke) (fuel : Nat) : Stmt → Exec Unit
  | .assign target value => do assign target (← evaluateWith invoke value)
  | .block body => executeAllWith invoke fuel body
  | .ifThen test body => do
      if ← testWith invoke test then executeWith invoke fuel body
  | .ifElse test thenBranch elseBranch => do
      if ← testWith invoke test then executeWith invoke fuel thenBranch
      else executeWith invoke fuel elseBranch
  | .loop test body => repeatWhile fuel (testWith invoke test) (executeWith invoke fuel body)
  | .read target => do declare target (← readInteger)
  | .write value => do writeLine (← evaluateWith invoke value)

/-- Runs statements in order. -/
def executeAllWith (invoke : Invoke) (fuel : Nat) : List Stmt → Exec Unit
  | [] => pure ()
  | first :: rest => do
      executeWith invoke fuel first
      executeAllWith invoke fuel rest

end

/-- Calls a procedure. -/
def invoke : Nat → Invoke
  | 0, _, _ => throw .outOfFuel
  | fuel + 1, procedure, values =>
      inScope (procedure.frame values) procedure.name
        (executeWith (invoke fuel) fuel procedure.body)

/-- The value of an expression. -/
def evaluate (fuel : Nat) (expression : Expr) : Exec Int32 :=
  evaluateWith (invoke fuel) expression

/-- Whether a condition holds. -/
def test (fuel : Nat) (condition : Condition) : Exec Bool :=
  testWith (invoke fuel) condition

/-- Runs a statement. -/
def execute (fuel : Nat) (statement : Stmt) : Exec Unit :=
  executeWith (invoke fuel) fuel statement

/-- Makes a procedure known. -/
def register (procedure : Procedure) : Exec Unit :=
  modify fun state => { state with environment := state.environment.register procedure }

/-- Runs a program: its variables start at zero, its procedures become known, and its main
statement is run. -/
def run (fuel : Nat) (program : Program) : Exec Unit := do
  program.globals.forM fun name => declare name 0
  program.procedures.forM register
  execute fuel program.body

end Interpreter

end MiniPascal
