import MiniPascal.Text.Decimal
import MiniPascal.Tree.Basic

/-!
# The text of program trees

Every arithmetic operation is written in parentheses and a negative number as `(-n)`, so that the
text shows the shape of the tree. A comparison used as a value is written in square brackets,
which no source text can say. A statement nested in another is indented by two more blanks.
-/

namespace MiniPascal

mutual

/-- The text of an expression. -/
def Expr.render : Expr → String
  | .num value =>
      if value < 0 then "(" ++ Decimal.render value ++ ")" else Decimal.render value
  | .var name => name
  | .binary operator left right =>
      "(" ++ left.render ++ " " ++ operator.symbol ++ " " ++ right.render ++ ")"
  | .compare relation left right =>
      "[" ++ left.render ++ " " ++ relation.symbol ++ " " ++ right.render ++ "]"
  | .call name args => name ++ "(" ++ ", ".intercalate (Expr.renderAll args) ++ ")"

/-- The texts of expressions, in order. -/
def Expr.renderAll : List Expr → List String
  | [] => []
  | first :: rest => first.render :: Expr.renderAll rest

end

/-- The text of a condition. -/
def Condition.render (condition : Condition) : String :=
  condition.left.render ++ " " ++ condition.relation.symbol ++ " " ++ condition.right.render

/-- The blanks in front of a line at a depth of nesting. -/
def indent (depth : Nat) : String :=
  String.ofList (List.replicate (2 * depth) ' ')

mutual

/-- The lines of a statement at a depth of nesting, each with its line end. -/
def Stmt.renderAt (depth : Nat) : Stmt → String
  | .assign target value => indent depth ++ target ++ " := " ++ value.render ++ ";\n"
  | .block body =>
      indent depth ++ "BEGIN\n" ++ Stmt.renderAllAt (depth + 1) body ++ indent depth ++ "END;\n"
  | .ifThen test body =>
      indent depth ++ "IF " ++ test.render ++ " THEN\n" ++ body.renderAt (depth + 1)
  | .ifElse test thenBranch elseBranch =>
      indent depth ++ "IF " ++ test.render ++ " THEN\n" ++ thenBranch.renderAt (depth + 1) ++
        indent depth ++ "ELSE\n" ++ elseBranch.renderAt (depth + 1)
  | .loop test body =>
      indent depth ++ "WHILE " ++ test.render ++ " DO\n" ++ body.renderAt (depth + 1)
  | .read target => indent depth ++ "READLN(" ++ target ++ ");\n"
  | .write value => indent depth ++ "WRITELN(" ++ value.render ++ ");\n"

/-- The lines of statements at one depth, in order. -/
def Stmt.renderAllAt (depth : Nat) : List Stmt → String
  | [] => ""
  | first :: rest => first.renderAt depth ++ Stmt.renderAllAt depth rest

end

/-- The text of a statement. -/
def Stmt.render (statement : Stmt) : String :=
  statement.renderAt 0

/-- The line that declares variables; there is none where nothing is declared. -/
def declarationLine : List String → String
  | [] => ""
  | names => "VAR " ++ ", ".intercalate names ++ ";\n"

/-- The text of a procedure. -/
def Procedure.render (procedure : Procedure) : String :=
  "PROCEDURE " ++ procedure.name ++ "(" ++ ", ".intercalate procedure.params ++ ");\n" ++
    declarationLine procedure.locals ++ procedure.body.render

/-- The text of a program, which ends with a full stop. -/
def Program.render (program : Program) : String :=
  declarationLine program.globals ++ String.join (program.procedures.map Procedure.render) ++
    program.body.render ++ "."

end MiniPascal
