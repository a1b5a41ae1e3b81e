import MiniPascal.Proofs.Parser.Grammar
import MiniPascal.Proofs.Printer.Printable

/-!
# Derivations of printed trees

The tokens of a printable tree derive the tree with its negative numbers replaced by negations.
Every printed expression is a factor, since operations are printed in parentheses.
-/

namespace MiniPascal

mutual

/-- The expression with each negative number replaced by a negation. -/
def Expr.norm : Expr → Expr
  | .num value => if value < 0 then Expr.negation (.num (-value)) else .num value
  | .var name => .var name
  | .binary operator left right => .binary operator left.norm right.norm
  | .compare relation left right => .compare relation left.norm right.norm
  | .call name args => .call name (Expr.normAll args)

/-- The expressions with each negative number replaced by a negation. -/
def Expr.normAll : List Expr → List Expr
  | [] => []
  | first :: rest => first.norm :: Expr.normAll rest

end

/-- The condition with each negative number replaced by a negation. -/
def Condition.norm (test : Condition) : Condition :=
  ⟨test.relation, test.left.norm, test.right.norm⟩

mutual

/-- The statement with each negative number replaced by a negation. -/
def Stmt.norm : Stmt → Stmt
  | .assign target value => .assign target value.norm
  | .block body => .block (Stmt.normAll body)
  | .ifThen test body => .ifThen test.norm body.norm
  | .ifElse test thenBranch elseBranch => .ifElse test.norm thenBranch.norm elseBranch.norm
  | .loop test body => .loop test.norm body.norm
  | .read target => .read target
  | .write value => .write value.norm

/-- The statements with each negative number replaced by a negation. -/
def Stmt.normAll : List Stmt → List Stmt
  | [] => []
  | first :: rest => first.norm :: Stmt.normAll rest

end

/-- The procedure with each negative number replaced by a negation. -/
def Procedure.norm (procedure : Procedure) : Procedure :=
  { procedure with body := procedure.body.norm }

/-- The program with each negative number replaced by a negation. -/
def Program.norm (program : Program) : Program :=
  { program with procedures := program.procedures.map Procedure.norm, body := program.body.norm }

open Grammar

theorem separated_cons (first : List Token) (others : List (List Token)) :
    separated (first :: others) = first ++ others.flatMap (Token.comma :: ·) := by
  induction others generalizing first with
  | nil => simp [separated]
  | cons second others ih =>
      have step : separated (first :: second :: others) =
          first ++ .comma :: separated (second :: others) := by
        simp [separated]
      rw [step, ih, List.flatMap_cons, List.cons_append]

mutual

/-- The tokens of a printable expression are a factor. -/
theorem factor_tokens (tree : Expr) (printable : tree.printable aboveLeast) {rest : List Token}
    (notCall : rest.head? ≠ some .leftParen) : Factor (tree.tokens ++ rest) tree.norm rest := by
  cases tree with
  | num value =>
      rw [Expr.tokens, Expr.norm]
      split
      · exact .parentheses (.term (.factor (.negation (.number (-value)))))
      · exact .number value
  | var name =>
      rw [Expr.tokens, Expr.norm]
      exact .variable name notCall
  | binary operator left right =>
      rw [Expr.printable, Bool.and_eq_true] at printable
      have derivedRight : Factor (right.tokens ++ .rightParen :: rest) right.norm
          (.rightParen :: rest) :=
        factor_tokens right printable.2 (by simp)
      have derivedLeft (after : List Token) :
          Factor (left.tokens ++ operator.token :: after) left.norm (operator.token :: after) :=
        factor_tokens left printable.1 (by cases operator <;> simp [Operator.token])
      simp only [Expr.tokens, Expr.norm, List.cons_append, List.append_assoc, List.nil_append]
      refine .parentheses ?_
      cases operator with
      | add => exact .sum (.term (.factor (derivedLeft _))) .plus (.factor derivedRight)
      | sub => exact .sum (.term (.factor (derivedLeft _))) .minus (.factor derivedRight)
      | mul => exact .term (.product (.factor (derivedLeft _)) .times derivedRight)
      | div => exact .term (.product (.factor (derivedLeft _)) .divide derivedRight)
      | mod => exact .term (.product (.factor (derivedLeft _)) .kwMod derivedRight)
  | compare relation left right => cases printable
  | call name args =>
      rw [Expr.printable, Bool.and_eq_true] at printable
      simp only [Expr.tokens, Expr.norm, List.cons_append, List.append_assoc, List.nil_append]
      exact .call name (arguments_tokens args printable.2)

/-- The tokens of printable expressions are the arguments of a call. -/
theorem arguments_tokens (trees : List Expr) (printable : Expr.printableAll aboveLeast trees)
    {rest : List Token} :
    Arguments (separated (Expr.tokensAll trees) ++ .rightParen :: rest) (Expr.normAll trees)
      rest := by
  cases trees with
  | nil => exact .none
  | cons first others =>
      rw [Expr.printableAll, Bool.and_eq_true] at printable
      have derivedOthers : MoreArguments _ _ rest := moreArguments_tokens others printable.2
      rw [Expr.tokensAll, Expr.normAll, separated_cons, List.append_assoc]
      refine .some (.term (.factor (factor_tokens first printable.1 ?_))) derivedOthers
      exact derivedOthers.head_ne_leftParen

theorem moreArguments_tokens (trees : List Expr) (printable : Expr.printableAll aboveLeast trees)
    {rest : List Token} :
    MoreArguments ((Expr.tokensAll trees).flatMap (Token.comma :: ·) ++ .rightParen :: rest)
      (Expr.normAll trees) rest := by
  cases trees with
  | nil => exact .none
  | cons first others =>
      rw [Expr.printableAll, Bool.and_eq_true] at printable
      have derivedOthers : MoreArguments _ _ rest := moreArguments_tokens others printable.2
      rw [Expr.tokensAll, Expr.normAll, List.flatMap_cons, List.cons_append, List.cons_append,
        List.append_assoc]
      refine .some (.term (.factor (factor_tokens first printable.1 ?_))) derivedOthers
      exact derivedOthers.head_ne_leftParen

end

theorem expression_tokens (tree : Expr) (printable : tree.printable aboveLeast)
    {rest : List Token} (notCall : rest.head? ≠ some .leftParen) :
    Expression (tree.tokens ++ rest) tree.norm rest :=
  .term (.factor (factor_tokens tree printable notCall))

theorem condition_tokens {test : Condition} (printable : test.printable aboveLeast)
    {rest : List Token} (notCall : rest.head? ≠ some .leftParen) :
    Grammar.Condition (test.tokens ++ rest) test.norm rest := by
  rw [Condition.printable, Bool.and_eq_true] at printable
  rw [Condition.tokens, List.append_assoc, List.cons_append]
  exact .compare (expression_tokens test.left printable.1 (by simp))
    (expression_tokens test.right printable.2 notCall)

/-- No statement starts with `ELSE`. -/
theorem head_tokensAll (trees : List Stmt) {rest : List Token}
    (notElse : rest.head? ≠ some .kwElse) :
    (Stmt.tokensAll trees ++ rest).head? ≠ some .kwElse := by
  cases trees with
  | nil => exact notElse
  | cons first others => cases first <;> simp [Stmt.tokensAll, Stmt.tokens]

mutual

/-- The tokens of a printable statement derive it, unless it ends open and an `ELSE` follows. -/
theorem statement_tokens (tree : Stmt) (printable : tree.printable aboveLeast) {rest : List Token}
    (closed : tree.endsOpen → rest.head? ≠ some .kwElse) :
    Statement (tree.tokens ++ rest) tree.norm rest := by
  cases tree with
  | assign target value =>
      rw [Stmt.printable, Bool.and_eq_true] at printable
      simp only [Stmt.tokens, Stmt.norm, List.cons_append, List.append_assoc, List.nil_append]
      exact .assign target (expression_tokens value printable.2 (by simp))
  | block body =>
      rw [Stmt.printable] at printable
      simp only [Stmt.tokens, Stmt.norm, List.cons_append, List.append_assoc, List.nil_append]
      exact .block (statements_tokens body printable (by simp))
  | ifThen test body =>
      rw [Stmt.printable, Bool.and_eq_true] at printable
      have notElse : rest.head? ≠ some .kwElse := closed rfl
      simp only [Stmt.tokens, Stmt.norm, List.cons_append, List.append_assoc]
      exact .ifThen (condition_tokens printable.1 (by simp))
        (statement_tokens body printable.2 fun _ => notElse) notElse
  | ifElse test thenBranch elseBranch =>
      simp only [Stmt.printable, Bool.and_eq_true, Bool.not_eq_true'] at printable
      obtain ⟨⟨⟨printableTest, printableThen⟩, closedThen⟩, printableElse⟩ := printable
      simp only [Stmt.tokens, Stmt.norm, List.cons_append, List.append_assoc]
      refine .ifElse (condition_tokens printableTest (by simp)) ?_
        (statement_tokens elseBranch printableElse closed)
      exact statement_tokens thenBranch printableThen (by simp [closedThen])
  | loop test body =>
      rw [Stmt.printable, Bool.and_eq_true] at printable
      simp only [Stmt.tokens, Stmt.norm, List.cons_append, List.append_assoc]
      exact .loop (condition_tokens printable.1 (by simp))
        (statement_tokens body printable.2 closed)
  | read target =>
      rw [Stmt.tokens, Stmt.norm]
      exact .read target
  | write value =>
      rw [Stmt.printable] at printable
      simp only [Stmt.tokens, Stmt.norm, List.cons_append, List.append_assoc, List.nil_append]
      exact .write (expression_tokens value printable (by simp))

theorem statements_tokens (trees : List Stmt) (printable : Stmt.printableAll aboveLeast trees)
    {rest : List Token} (notElse : rest.head? ≠ some .kwElse) :
    Statements (Stmt.tokensAll trees ++ rest) (Stmt.normAll trees) rest := by
  cases trees with
  | nil => exact .none
  | cons first others =>
      rw [Stmt.printableAll, Bool.and_eq_true] at printable
      rw [Stmt.tokensAll, Stmt.normAll, List.append_assoc]
      exact .some (statement_tokens first printable.1 fun _ => head_tokensAll others notElse)
        (statements_tokens others printable.2 notElse)

end

theorem names_tokens (first : String) (others : List String) {rest : List Token} :
    Names (nameTokens (first :: others) ++ rest) (first :: others) rest := by
  induction others generalizing first with
  | nil => exact .one first
  | cons second others ih =>
      have step : nameTokens (first :: second :: others) =
          .ident first :: .comma :: nameTokens (second :: others) := by
        simp [nameTokens, separated]
      rw [step]
      exact .more first (ih second)

theorem declarations_tokens (names : List String) {rest : List Token} :
    Declarations (declarationTokens names ++ rest) names rest := by
  cases names with
  | nil => exact .none
  | cons first others =>
      have derived : Declarations _ (first :: others ++ []) rest :=
        .some (names_tokens first others) .none
      rw [List.append_nil] at derived
      simpa [declarationTokens] using derived

theorem parameters_tokens (names : List String) {rest : List Token} :
    Parameters (nameTokens names ++ .rightParen :: rest) names rest := by
  cases names with
  | nil => exact .none
  | cons first others => exact .some (names_tokens first others)

theorem procedure_tokens {procedure : Procedure}
    (printable : procedure.printable aboveLeast) {rest : List Token}
    (notElse : rest.head? ≠ some .kwElse) :
    Grammar.Procedure (procedure.tokens ++ rest) procedure.norm rest := by
  simp only [Procedure.printable, Bool.and_eq_true] at printable
  simp only [Procedure.tokens, List.cons_append, List.append_assoc]
  exact .declare procedure.name (parameters_tokens _) (declarations_tokens _)
    (statement_tokens procedure.body printable.2 fun _ => notElse)

theorem procedures_tokens {procedures : List Procedure}
    (printable : procedures.all (·.printable aboveLeast)) {rest : List Token}
    (notElse : rest.head? ≠ some .kwElse) :
    Procedures (procedures.flatMap Procedure.tokens ++ rest) (procedures.map Procedure.norm)
      rest := by
  induction procedures with
  | nil => exact .none
  | cons first others ih =>
      rw [List.all_cons, Bool.and_eq_true] at printable
      rw [List.flatMap_cons, List.map_cons, List.append_assoc]
      refine .some (procedure_tokens printable.1 ?_) (ih printable.2)
      cases others with
      | nil => exact notElse
      | cons second others => simp [Procedure.tokens]

/-- The tokens of a printable program derive it. -/
theorem program_tokens {program : Program} (printable : program.printable aboveLeast) :
    Grammar.Program program.tokens program.norm := by
  simp only [Program.printable, Bool.and_eq_true] at printable
  obtain ⟨⟨-, printableProcedures⟩, printableBody⟩ := printable
  have derivedBody : Statement (program.body.tokens ++ []) program.body.norm [] :=
    statement_tokens program.body printableBody (by simp)
  rw [List.append_nil] at derivedBody
  refine .whole (declarations_tokens _) (procedures_tokens printableProcedures ?_) derivedBody
  cases program.body <;> simp [Stmt.tokens]

end MiniPascal
