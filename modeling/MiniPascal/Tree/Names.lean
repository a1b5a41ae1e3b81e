import MiniPascal.Tree.Basic

/-!
# Names of a program

The expressions of a statement, the names it writes, and `Program.globalNames`: every name that
lives outside the procedures.
-/

namespace MiniPascal

mutual

/-- The expression and all expressions in it, each before its own parts, left to right. -/
def Expr.parts : Expr → List Expr
  | .num value => [.num value]
  | .var name => [.var name]
  | .binary operator left right => .binary operator left right :: (left.parts ++ right.parts)
  | .compare relation left right => .compare relation left right :: (left.parts ++ right.parts)
  | .call name args => .call name args :: Expr.partsAll args

/-- The parts of expressions, in order. -/
def Expr.partsAll : List Expr → List Expr
  | [] => []
  | first :: rest => first.parts ++ Expr.partsAll rest

end

/-- The expressions of a condition. -/
def Condition.parts (condition : Condition) : List Expr :=
  condition.left.parts ++ condition.right.parts

mutual

/-- All expressions of a statement, in the order of its text. -/
def Stmt.expressions : Stmt → List Expr
  | .assign _ value => value.parts
  | .block body => Stmt.expressionsAll body
  | .ifThen test body => test.parts ++ body.expressions
  | .ifElse test thenBranch elseBranch =>
      test.parts ++ thenBranch.expressions ++ elseBranch.expressions
  | .loop test body => test.parts ++ body.expressions
  | .read _ => []
  | .write value => value.parts

/-- All expressions of statements, in order. -/
def Stmt.expressionsAll : List Stmt → List Expr
  | [] => []
  | first :: rest => first.expressions ++ Stmt.expressionsAll rest

end

mutual

/-- The targets of the assignments and reads of a statement, in the order of its text. -/
def Stmt.targets : Stmt → List String
  | .assign target _ => [target]
  | .block body => Stmt.targetsAll body
  | .ifThen _ body => body.targets
  | .ifElse _ thenBranch elseBranch => thenBranch.targets ++ elseBranch.targets
  | .loop _ body => body.targets
  | .read target => [target]
  | .write _ => []

/-- The targets of statements, in order. -/
def Stmt.targetsAll : List Stmt → List String
  | [] => []
  | first :: rest => first.targets ++ Stmt.targetsAll rest

end

/-- The name of an expression that is a variable. -/
def Expr.variable? : Expr → Option String
  | .var name => some name
  | _ => none

/-- The names that a statement writes, followed by the variables that it reads. -/
def Stmt.touched (statement : Stmt) : List String :=
  statement.targets ++ statement.expressions.filterMap Expr.variable?

/-- The names that the body of a procedure touches and the procedure does not own. -/
def Procedure.outerNames (procedure : Procedure) : List String :=
  procedure.body.touched.filter fun name => !procedure.owns name

/-- The names of the global scope without repetition: declared variables first, then what the
main statement touches, then what each procedure touches without owning it. -/
def Program.globalNames (program : Program) : List String :=
  (program.globals ++ program.body.touched ++
    program.procedures.flatMap Procedure.outerNames).eraseDups

end MiniPascal
