import MiniPascal.Tree.Operator

/-!
# Program trees

Expressions, conditions, statements, procedures and programs. A tree may hold more than a source
text can say: negative numbers, comparisons as values, and names that are no identifiers.
-/

namespace MiniPascal

/-- An expression. A comparison used as a value is one when it holds and zero when it does not. -/
inductive Expr where
  | num (value : Int32)
  | var (name : String)
  | binary (operator : Operator) (left right : Expr)
  | compare (relation : Comparison) (left right : Expr)
  | call (name : String) (args : List Expr)
  deriving Repr

/-- The expression `-value`, which stands for a subtraction from zero. -/
def Expr.negation (value : Expr) : Expr :=
  .binary .sub (.num 0) value

/-- The test of an `IF` or a `WHILE`. -/
structure Condition where
  relation : Comparison
  left : Expr
  right : Expr
  deriving Repr

/-- A statement. -/
inductive Stmt where
  /-- Assignment: `target := value` -/
  | assign (target : String) (value : Expr)
  /-- Sequence: `BEGIN body END` -/
  | block (body : List Stmt)
  /-- Choice with one branch: `IF test THEN body` -/
  | ifThen (test : Condition) (body : Stmt)
  /-- Choice: `IF test THEN thenBranch ELSE elseBranch` -/
  | ifElse (test : Condition) (thenBranch elseBranch : Stmt)
  /-- Repetition: `WHILE test DO body` -/
  | loop (test : Condition) (body : Stmt)
  /-- Input: `READLN(target)` -/
  | read (target : String)
  /-- Output: `WRITELN(value)` -/
  | write (value : Expr)
  deriving Repr

/-- A procedure. Its own name is a variable of its body, whose last value is what a call gives. -/
structure Procedure where
  name : String
  params : List String
  locals : List String
  body : Stmt
  deriving Repr

/-- Whether `name` belongs to the procedure: its own name, a parameter or a local. -/
def Procedure.owns (procedure : Procedure) (name : String) : Bool :=
  procedure.name = name || procedure.params.contains name || procedure.locals.contains name

/-- A program: declared global variables, procedures, and the main statement. -/
structure Program where
  globals : List String
  procedures : List Procedure
  body : Stmt
  deriving Repr

end MiniPascal
