import MiniPascal.Tree.Basic

/-!
# Equality of program trees

`Expr.same` and `Stmt.same` compare trees node by node; they decide equality.
-/

namespace MiniPascal

mutual

/-- Whether two expressions are the same tree. -/
def Expr.same : Expr → Expr → Bool
  | .num value, .num value' => value = value'
  | .var name, .var name' => name = name'
  | .binary operator left right, .binary operator' left' right' =>
      operator = operator' && left.same left' && right.same right'
  | .compare relation left right, .compare relation' left' right' =>
      relation = relation' && left.same left' && right.same right'
  | .call name args, .call name' args' => name = name' && Expr.sameAll args args'
  | _, _ => false

/-- Whether two lists hold the same expressions in the same order. -/
def Expr.sameAll : List Expr → List Expr → Bool
  | [], [] => true
  | first :: rest, first' :: rest' => first.same first' && Expr.sameAll rest rest'
  | _, _ => false

end

mutual

theorem Expr.same_eq_true (left right : Expr) : left.same right = true ↔ left = right := by
  cases left with
  | num value => cases right <;> simp [Expr.same]
  | var name => cases right <;> simp [Expr.same]
  | binary operator first second =>
      cases right <;>
        simp [Expr.same, and_assoc, Expr.same_eq_true first, Expr.same_eq_true second]
  | compare relation first second =>
      cases right <;>
        simp [Expr.same, and_assoc, Expr.same_eq_true first, Expr.same_eq_true second]
  | call name args => cases right <;> simp [Expr.same, Expr.sameAll_eq_true args]

theorem Expr.sameAll_eq_true (left right : List Expr) :
    Expr.sameAll left right = true ↔ left = right := by
  cases left with
  | nil => cases right <;> simp [Expr.sameAll]
  | cons first rest =>
      cases right <;> simp [Expr.sameAll, Expr.same_eq_true first, Expr.sameAll_eq_true rest]

end

instance : DecidableEq Expr := fun left right =>
  decidable_of_decidable_of_iff (Expr.same_eq_true left right)

deriving instance DecidableEq for Condition

mutual

/-- Whether two statements are the same tree. -/
def Stmt.same : Stmt → Stmt → Bool
  | .assign target value, .assign target' value' => target = target' && value = value'
  | .block body, .block body' => Stmt.sameAll body body'
  | .ifThen test body, .ifThen test' body' => test = test' && body.same body'
  | .ifElse test thenBranch elseBranch, .ifElse test' thenBranch' elseBranch' =>
      test = test' && thenBranch.same thenBranch' && elseBranch.same elseBranch'
  | .loop test body, .loop test' body' => test = test' && body.same body'
  | .read target, .read target' => target = target'
  | .write value, .write value' => value = value'
  | _, _ => false

/-- Whether two lists hold the same statements in the same order. -/
def Stmt.sameAll : List Stmt → List Stmt → Bool
  | [], [] => true
  | first :: rest, first' :: rest' => first.same first' && Stmt.sameAll rest rest'
  | _, _ => false

end

mutual

theorem Stmt.same_eq_true (left right : Stmt) : left.same right = true ↔ left = right := by
  cases left with
  | assign target value => cases right <;> simp [Stmt.same]
  | block body => cases right <;> simp [Stmt.same, Stmt.sameAll_eq_true body]
  | ifThen test body => cases right <;> simp [Stmt.same, Stmt.same_eq_true body]
  | ifElse test thenBranch elseBranch =>
      cases right <;>
        simp [Stmt.same, and_assoc, Stmt.same_eq_true thenBranch, Stmt.same_eq_true elseBranch]
  | loop test body => cases right <;> simp [Stmt.same, Stmt.same_eq_true body]
  | read target => cases right <;> simp [Stmt.same]
  | write value => cases right <;> simp [Stmt.same]

theorem Stmt.sameAll_eq_true (left right : List Stmt) :
    Stmt.sameAll left right = true ↔ left = right := by
  cases left with
  | nil => cases right <;> simp [Stmt.sameAll]
  | cons first rest =>
      cases right <;> simp [Stmt.sameAll, Stmt.same_eq_true first, Stmt.sameAll_eq_true rest]

end

instance : DecidableEq Stmt := fun left right =>
  decidable_of_decidable_of_iff (Stmt.same_eq_true left right)

deriving instance DecidableEq for Procedure

deriving instance DecidableEq for Program

end MiniPascal
