import MiniPascal.Proofs.Token.Spelling
import MiniPascal.Tree.Printer

/-!
# Printable trees

A tree is printable if its text can say it: its names are plain, it compares only in conditions, its
numbers are above the least one, and no branch in front of an `ELSE` could take that `ELSE` for
itself. The text of a printable tree spells its tokens.
-/

namespace MiniPascal

/-- Whether the value has a magnitude among the 32-bit values. -/
def aboveLeast (value : Int32) : Bool :=
  Int32.minValue < value

/-- Whether the value can be written without a sign. -/
def unsigned (value : Int32) : Bool :=
  0 ≤ value

mutual

/-- Whether the names of an expression are plain, its numbers are allowed, and it compares
nothing. -/
def Expr.printable (allowed : Int32 → Bool) : Expr → Bool
  | .num value => allowed value
  | .var name => isPlainName name
  | .binary _ left right => left.printable allowed && right.printable allowed
  | .compare _ _ _ => false
  | .call name args => isPlainName name && Expr.printableAll allowed args

/-- Whether all of the expressions are printable. -/
def Expr.printableAll (allowed : Int32 → Bool) : List Expr → Bool
  | [] => true
  | first :: rest => first.printable allowed && Expr.printableAll allowed rest

end

/-- Whether both sides of a condition are printable. -/
def Condition.printable (allowed : Int32 → Bool) (test : Condition) : Bool :=
  test.left.printable allowed && test.right.printable allowed

/-- Whether an `ELSE` behind the statement would become part of it. -/
def Stmt.endsOpen : Stmt → Bool
  | .ifThen _ _ => true
  | .ifElse _ _ elseBranch => elseBranch.endsOpen
  | .loop _ body => body.endsOpen
  | .assign _ _ | .block _ | .read _ | .write _ => false

mutual

/-- Whether all parts of a statement are printable and no `ELSE` stands behind a branch that ends
open. -/
def Stmt.printable (allowed : Int32 → Bool) : Stmt → Bool
  | .assign target value => isPlainName target && value.printable allowed
  | .block body => Stmt.printableAll allowed body
  | .ifThen test body => test.printable allowed && body.printable allowed
  | .ifElse test thenBranch elseBranch =>
      test.printable allowed && thenBranch.printable allowed && !thenBranch.endsOpen &&
        elseBranch.printable allowed
  | .loop test body => test.printable allowed && body.printable allowed
  | .read target => isPlainName target
  | .write value => value.printable allowed

/-- Whether all of the statements are printable. -/
def Stmt.printableAll (allowed : Int32 → Bool) : List Stmt → Bool
  | [] => true
  | first :: rest => first.printable allowed && Stmt.printableAll allowed rest

end

/-- Whether the names and the body of a procedure are printable. -/
def Procedure.printable (allowed : Int32 → Bool) (procedure : Procedure) : Bool :=
  isPlainName procedure.name && procedure.params.all isPlainName &&
    procedure.locals.all isPlainName && procedure.body.printable allowed

/-- Whether all parts of a program are printable. -/
def Program.printable (allowed : Int32 → Bool) (program : Program) : Bool :=
  program.globals.all isPlainName && program.procedures.all (·.printable allowed) &&
    program.body.printable allowed

/-- The token of an operator. -/
def Operator.token : Operator → Token
  | .add => .plus
  | .sub => .minus
  | .mul => .times
  | .div => .divide
  | .mod => .kwMod

/-- Tokens with commas between them. -/
def separated (items : List (List Token)) : List Token :=
  [Token.comma].intercalate items

mutual

/-- The tokens in the text of an expression. -/
def Expr.tokens : Expr → List Token
  | .num value =>
      if value < 0 then [.leftParen, .minus, .number (-value), .rightParen] else [.number value]
  | .var name => [.ident name]
  | .binary operator left right =>
      .leftParen :: (left.tokens ++ operator.token :: (right.tokens ++ [.rightParen]))
  | .compare relation left right => left.tokens ++ .relation relation :: right.tokens
  | .call name args =>
      .ident name :: .leftParen :: (separated (Expr.tokensAll args) ++ [.rightParen])

/-- The tokens of each of the expressions. -/
def Expr.tokensAll : List Expr → List (List Token)
  | [] => []
  | first :: rest => first.tokens :: Expr.tokensAll rest

end

/-- The tokens in the text of a condition. -/
def Condition.tokens (test : Condition) : List Token :=
  test.left.tokens ++ .relation test.relation :: test.right.tokens

mutual

/-- The tokens in the text of a statement. -/
def Stmt.tokens : Stmt → List Token
  | .assign target value => .ident target :: .assign :: (value.tokens ++ [.semicolon])
  | .block body => .kwBegin :: (Stmt.tokensAll body ++ [.kwEnd, .semicolon])
  | .ifThen test body => .kwIf :: (test.tokens ++ .kwThen :: body.tokens)
  | .ifElse test thenBranch elseBranch =>
      .kwIf :: (test.tokens ++ .kwThen :: (thenBranch.tokens ++ .kwElse :: elseBranch.tokens))
  | .loop test body => .kwWhile :: (test.tokens ++ .kwDo :: body.tokens)
  | .read target => [.kwReadln, .leftParen, .ident target, .rightParen, .semicolon]
  | .write value => .kwWriteln :: .leftParen :: (value.tokens ++ [.rightParen, .semicolon])

/-- The tokens in the text of statements. -/
def Stmt.tokensAll : List Stmt → List Token
  | [] => []
  | first :: rest => first.tokens ++ Stmt.tokensAll rest

end

/-- The tokens of names with commas between them. -/
def nameTokens (names : List String) : List Token :=
  separated (names.map ([Token.ident ·]))

/-- The tokens of the line that declares variables. -/
def declarationTokens : List String → List Token
  | [] => []
  | names => .kwVar :: (nameTokens names ++ [.semicolon])

/-- The tokens in the text of a procedure. -/
def Procedure.tokens (procedure : Procedure) : List Token :=
  .kwProcedure :: .ident procedure.name :: .leftParen :: (nameTokens procedure.params ++
    .rightParen :: .semicolon :: (declarationTokens procedure.locals ++ procedure.body.tokens))

/-- The tokens in the text of a program. -/
def Program.tokens (program : Program) : List Token :=
  declarationTokens program.globals ++ (program.procedures.flatMap Procedure.tokens ++
    program.body.tokens)

/-- In front of a text that does not lengthen its last word, the text spells the tokens. -/
def Writes (text : String) (tokens : List Token) : Prop :=
  ∀ {rest : String} {tokens' : List Token}, rest.toList.head?.any Char.isAlphanum = false →
    Spells rest tokens' → Spells (text ++ rest) (tokens ++ tokens')

namespace Spells

variable {text : String} {tokens : List Token}

theorem space (spells : Spells text tokens) : Spells (" " ++ text) tokens := by
  have same : " " = String.singleton ' ' := by decide
  rw [same]
  exact spells.blank (by decide)

theorem newline (spells : Spells text tokens) : Spells ("\n" ++ text) tokens := by
  have same : "\n" = String.singleton '\n' := by decide
  rw [same]
  exact spells.blank (by decide)

theorem indent (depth : Nat) (spells : Spells text tokens) :
    Spells (MiniPascal.indent depth ++ text) tokens := by
  unfold MiniPascal.indent
  induction 2 * depth with
  | zero => simpa using spells
  | succ count ih =>
      have same : String.ofList (List.replicate (count + 1) ' ') ++ text =
          " " ++ (String.ofList (List.replicate count ' ') ++ text) := by
        simp [← String.toList_inj, List.replicate_succ]
      rw [same]
      exact ih.space

/-- A text whose first token is no star starts with no star. -/
theorem head_ne_star (spells : Spells text tokens) (noTimes : tokens.head? ≠ some .times) :
    text.toList.head? ≠ some '*' := by
  intro star
  obtain ⟨rest, spelled⟩ := List.head?_eq_some_iff.mp star
  obtain ⟨lexemes, ending, stream, rfl⟩ := spells 1
  have read : Lexer.next ⟨'*' :: rest, 1⟩ = (.ok ⟨some .times, 1⟩, ⟨rest, 1⟩) :=
    Lexer.next_symbol (by decide) rfl
  rw [spelled, TokenStream.ofLexer_of_token read] at stream
  cases lexemes with
  | nil => cases congrArg (·.ahead) stream
  | cons lexeme lexemes =>
      cases congrArg (·.ahead.head?) stream
      exact noTimes rfl

/-- An opening parenthesis in front of a text whose first token is no star. -/
theorem leftParen (spells : Spells text tokens) (noTimes : tokens.head? ≠ some .times) :
    Spells (Token.leftParen.text ++ text) (.leftParen :: tokens) :=
  spells.token rfl (by simpa [Token.endsBefore] using spells.head_ne_star noTimes)

/-- A blank ends every token. -/
theorem spaced {token : Token} (spellable : token.spellable) (spells : Spells text tokens) :
    Spells (token.text ++ (" " ++ text)) (token :: tokens) := by
  refine spells.space.token spellable ?_
  cases token with
  | relation comparison => cases comparison <;> simp [Token.endsBefore]
  | _ => simp [Token.endsBefore]

/-- A line end ends every keyword. -/
theorem lined {token : Token} (spellable : token.spellable) (spells : Spells text tokens) :
    Spells (token.text ++ ("\n" ++ text)) (token :: tokens) := by
  refine spells.newline.token spellable ?_
  cases token with
  | relation comparison => cases comparison <;> simp [Token.endsBefore]
  | _ => simp [Token.endsBefore]

end Spells

theorem writes_name {name : String} (plain : isPlainName name) : Writes name [.ident name] := by
  intro rest tokens ends spells
  have spellable : (Token.ident name).spellable := plain
  have endsName : (Token.ident name).endsBefore rest.toList.head? := by
    simpa [Token.endsBefore] using ends
  have text_eq : (Token.ident name).text = name := rfl
  have spelled := spells.token spellable endsName
  rwa [text_eq] at spelled

/-- What is written with commas between spells the tokens with commas between. -/
theorem writes_separated {α : Type} {text : α → String} {tokens : α → List Token} {items : List α}
    (writes : ∀ item ∈ items, Writes (text item) (tokens item)) :
    Writes (", ".intercalate (items.map text)) (separated (items.map tokens)) := by
  intro rest tokens' ends spells
  induction items with
  | nil => simpa [separated] using spells
  | cons first items ih =>
      rw [List.forall_mem_cons] at writes
      cases items with
      | nil => simpa [separated] using writes.1 ends spells
      | cons second items =>
          have text_eq : ", ".intercalate ((first :: second :: items).map text) ++ rest =
              text first ++ (Token.comma.text ++ (" " ++
                (", ".intercalate ((second :: items).map text) ++ rest))) := by
            simp [← String.toList_inj, Token.text]
          have tokens_eq : separated ((first :: second :: items).map tokens) ++ tokens' =
              tokens first ++ .comma :: (separated ((second :: items).map tokens) ++ tokens') := by
            simp [separated]
          rw [text_eq, tokens_eq]
          exact writes.1 (by simp [Token.text]) (Spells.spaced rfl (ih writes.2))

theorem Operator.text_token (operator : Operator) : operator.token.text = operator.symbol := by
  cases operator <;> rfl

theorem Operator.spellable_token (operator : Operator) : operator.token.spellable := by
  cases operator <;> rfl

theorem Expr.renderAll_eq_map (trees : List Expr) : Expr.renderAll trees = trees.map render := by
  induction trees with
  | nil => rfl
  | cons first rest ih => rw [renderAll, ih, List.map_cons]

theorem Expr.tokensAll_eq_map (trees : List Expr) : Expr.tokensAll trees = trees.map tokens := by
  induction trees with
  | nil => rfl
  | cons first rest ih => rw [tokensAll, ih, List.map_cons]

theorem Expr.head_tokens {tree : Expr} (printable : tree.printable aboveLeast)
    (after : List Token) : (tree.tokens ++ after).head? ≠ some .times := by
  cases tree with
  | num value =>
      rw [Expr.tokens]
      split <;> simp
  | var name => simp [Expr.tokens]
  | binary operator left right => simp [Expr.tokens]
  | compare relation left right => cases printable
  | call name args => simp [Expr.tokens]

theorem head_separated_tokens {trees : List Expr} (printable : Expr.printableAll aboveLeast trees)
    (after : List Token) :
    (separated (trees.map Expr.tokens) ++ .rightParen :: after).head? ≠ some .times := by
  cases trees with
  | nil => simp [separated]
  | cons first rest =>
      rw [Expr.printableAll, Bool.and_eq_true] at printable
      cases rest with
      | nil =>
          have single : separated ([first].map Expr.tokens) = first.tokens := by simp [separated]
          rw [single]
          exact Expr.head_tokens printable.1 _
      | cons second rest =>
          have first_eq : separated ((first :: second :: rest).map Expr.tokens) =
              first.tokens ++ .comma :: separated ((second :: rest).map Expr.tokens) := by
            simp [separated]
          rw [first_eq, List.append_assoc]
          exact Expr.head_tokens printable.1 _

/-- The magnitude of a negative number above the least one is written behind its sign. -/
theorem render_of_negative {value : Int32} (above : aboveLeast value) (negative : value < 0) :
    Decimal.render value = "-" ++ Decimal.render (-value) ∧ 0 ≤ -value := by
  have lower : -2147483648 < value.toInt := by
    simpa [aboveLeast, Int32.lt_iff_toInt_lt] using above
  have upper : value.toInt < 0 := by simpa [Int32.lt_iff_toInt_lt] using negative
  have magnitude : (-value).toInt = -value.toInt := by
    rw [Int32.toInt_neg, Int.bmod_def]
    omega
  have positive : 0 ≤ -value := by
    rw [Int32.le_iff_toInt_le, magnitude]
    change 0 ≤ -value.toInt
    omega
  rw [Decimal.render, Decimal.render, if_pos negative, if_neg (Int32.not_lt.mpr positive),
    magnitude, Int.natAbs_neg]
  exact ⟨rfl, positive⟩

mutual

theorem writes_expr (tree : Expr) (printable : tree.printable aboveLeast) :
    Writes tree.render tree.tokens := by
  intro rest tokens ends spells
  cases tree with
  | num value =>
      rw [Expr.printable] at printable
      rw [Expr.render, Expr.tokens]
      split
      next negative =>
        obtain ⟨render_eq, positive⟩ := render_of_negative printable negative
        have text_eq : "(" ++ Decimal.render value ++ ")" ++ rest = Token.leftParen.text ++
            (Token.minus.text ++
              ((Token.number (-value)).text ++ (Token.rightParen.text ++ rest))) := by
          rw [render_eq]
          simp [← String.toList_inj, Token.text]
        rw [text_eq]
        refine Spells.leftParen ?_ (by simp)
        refine Spells.token rfl rfl (Spells.token ?_ ?_ (spells.token rfl rfl))
        · simpa [Token.spellable] using positive
        · simp [Token.endsBefore, Token.text]
      next nonnegative =>
        have spellable : (Token.number value).spellable := by
          simpa [Token.spellable] using nonnegative
        have endsNumber : (Token.number value).endsBefore rest.toList.head? := by
          cases next : rest.toList.head? <;> simp_all [Token.endsBefore, Char.isAlphanum]
        have text_eq : Decimal.render value = (Token.number value).text := rfl
        rw [text_eq]
        exact spells.token spellable endsNumber
  | var name =>
      rw [Expr.printable] at printable
      rw [Expr.render, Expr.tokens]
      exact writes_name printable ends spells
  | binary operator left right =>
      rw [Expr.printable, Bool.and_eq_true] at printable
      have text_eq : (Expr.binary operator left right).render ++ rest = Token.leftParen.text ++
          (left.render ++ (" " ++ (operator.token.text ++ (" " ++ (right.render ++
            (Token.rightParen.text ++ rest)))))) := by
        rw [operator.text_token]
        simp [← String.toList_inj, Expr.render, Token.text]
      rw [text_eq]
      simp only [Expr.tokens, List.cons_append, List.append_assoc, List.nil_append]
      refine Spells.leftParen ?_ (Expr.head_tokens printable.1 _)
      refine writes_expr left printable.1 (by simp) (Spells.space ?_)
      refine Spells.spaced operator.spellable_token ?_
      exact writes_expr right printable.2 (by simp [Token.text]) (spells.token rfl rfl)
  | compare relation left right => cases printable
  | call name args =>
      rw [Expr.printable, Bool.and_eq_true] at printable
      have text_eq : (Expr.call name args).render ++ rest = name ++ (Token.leftParen.text ++
          (", ".intercalate (args.map Expr.render) ++ (Token.rightParen.text ++ rest))) := by
        simp [← String.toList_inj, Expr.render, Expr.renderAll_eq_map, Token.text]
      rw [text_eq]
      simp only [Expr.tokens, Expr.tokensAll_eq_map, List.cons_append, List.append_assoc,
        List.nil_append]
      refine writes_name printable.1 (by simp [Token.text]) (Spells.leftParen ?_ ?_)
      · exact writes_separated (writes_exprs args printable.2) (by simp [Token.text])
          (spells.token rfl rfl)
      · exact head_separated_tokens printable.2 tokens

theorem writes_exprs (trees : List Expr) (printable : Expr.printableAll aboveLeast trees) :
    ∀ tree ∈ trees, Writes tree.render tree.tokens := by
  cases trees with
  | nil => simp
  | cons first rest =>
      rw [Expr.printableAll, Bool.and_eq_true] at printable
      rw [List.forall_mem_cons]
      exact ⟨writes_expr first printable.1, writes_exprs rest printable.2⟩

end

theorem spells_condition {test : Condition} (printable : test.printable aboveLeast) {rest : String}
    {tokens : List Token} (ends : rest.toList.head?.any Char.isAlphanum = false)
    (spells : Spells rest tokens) : Spells (test.render ++ rest) (test.tokens ++ tokens) := by
  rw [Condition.printable, Bool.and_eq_true] at printable
  have text_eq : test.render ++ rest = test.left.render ++ (" " ++
      ((Token.relation test.relation).text ++ (" " ++ (test.right.render ++ rest)))) := by
    simp [← String.toList_inj, Condition.render, Token.text]
  rw [text_eq]
  simp only [Condition.tokens, List.cons_append, List.append_assoc]
  refine writes_expr test.left printable.1 (by simp) (Spells.space (Spells.spaced rfl ?_))
  exact writes_expr test.right printable.2 ends spells

mutual

/-- The text of a printable statement spells its tokens. -/
theorem spells_stmt (tree : Stmt) (printable : tree.printable aboveLeast) (depth : Nat)
    {rest : String} {tokens : List Token} (spells : Spells rest tokens) :
    Spells (tree.renderAt depth ++ rest) (tree.tokens ++ tokens) := by
  cases tree with
  | assign target value =>
      rw [Stmt.printable, Bool.and_eq_true] at printable
      have text_eq : (Stmt.assign target value).renderAt depth ++ rest = indent depth ++ (target ++
          (" " ++ (Token.assign.text ++ (" " ++ (value.render ++ (Token.semicolon.text ++
            ("\n" ++ rest))))))) := by
        simp [← String.toList_inj, Stmt.renderAt, Token.text]
      rw [text_eq]
      simp only [Stmt.tokens, List.cons_append, List.append_assoc, List.nil_append]
      refine Spells.indent depth (writes_name printable.1 (by simp) (Spells.space ?_))
      refine Spells.spaced rfl (writes_expr value printable.2 (by simp [Token.text]) ?_)
      exact Spells.token rfl rfl spells.newline
  | block body =>
      rw [Stmt.printable] at printable
      have text_eq : (Stmt.block body).renderAt depth ++ rest = indent depth ++
          (Token.kwBegin.text ++ ("\n" ++ (Stmt.renderAllAt (depth + 1) body ++ (indent depth ++
            (Token.kwEnd.text ++ (Token.semicolon.text ++ ("\n" ++ rest))))))) := by
        simp [← String.toList_inj, Stmt.renderAt, Token.text]
      rw [text_eq]
      simp only [Stmt.tokens, List.cons_append, List.append_assoc, List.nil_append]
      refine Spells.indent depth (Spells.lined rfl (spells_stmts body printable (depth + 1) ?_))
      refine Spells.indent depth (Spells.token rfl ?_ (Spells.token rfl rfl spells.newline))
      simp [Token.endsBefore, Token.text]
  | ifThen test body =>
      rw [Stmt.printable, Bool.and_eq_true] at printable
      have text_eq : (Stmt.ifThen test body).renderAt depth ++ rest = indent depth ++
          (Token.kwIf.text ++ (" " ++ (test.render ++ (" " ++ (Token.kwThen.text ++ ("\n" ++
            (body.renderAt (depth + 1) ++ rest))))))) := by
        simp [← String.toList_inj, Stmt.renderAt, Token.text]
      rw [text_eq]
      simp only [Stmt.tokens, List.cons_append, List.append_assoc]
      refine Spells.indent depth (Spells.spaced rfl (spells_condition printable.1 (by simp) ?_))
      exact Spells.space (Spells.lined rfl (spells_stmt body printable.2 (depth + 1) spells))
  | ifElse test thenBranch elseBranch =>
      simp only [Stmt.printable, Bool.and_eq_true] at printable
      obtain ⟨⟨⟨printableTest, printableThen⟩, -⟩, printableElse⟩ := printable
      have text_eq : (Stmt.ifElse test thenBranch elseBranch).renderAt depth ++ rest =
          indent depth ++ (Token.kwIf.text ++ (" " ++ (test.render ++ (" " ++ (Token.kwThen.text ++
            ("\n" ++ (thenBranch.renderAt (depth + 1) ++ (indent depth ++ (Token.kwElse.text ++
              ("\n" ++ (elseBranch.renderAt (depth + 1) ++ rest))))))))))) := by
        simp [← String.toList_inj, Stmt.renderAt, Token.text]
      rw [text_eq]
      simp only [Stmt.tokens, List.cons_append, List.append_assoc]
      refine Spells.indent depth (Spells.spaced rfl (spells_condition printableTest (by simp) ?_))
      refine Spells.space (Spells.lined rfl (spells_stmt thenBranch printableThen (depth + 1) ?_))
      refine Spells.indent depth (Spells.lined rfl ?_)
      exact spells_stmt elseBranch printableElse (depth + 1) spells
  | loop test body =>
      rw [Stmt.printable, Bool.and_eq_true] at printable
      have text_eq : (Stmt.loop test body).renderAt depth ++ rest = indent depth ++
          (Token.kwWhile.text ++ (" " ++ (test.render ++ (" " ++ (Token.kwDo.text ++ ("\n" ++
            (body.renderAt (depth + 1) ++ rest))))))) := by
        simp [← String.toList_inj, Stmt.renderAt, Token.text]
      rw [text_eq]
      simp only [Stmt.tokens, List.cons_append, List.append_assoc]
      refine Spells.indent depth (Spells.spaced rfl (spells_condition printable.1 (by simp) ?_))
      exact Spells.space (Spells.lined rfl (spells_stmt body printable.2 (depth + 1) spells))
  | read target =>
      rw [Stmt.printable] at printable
      have text_eq : (Stmt.read target).renderAt depth ++ rest = indent depth ++
          (Token.kwReadln.text ++ (Token.leftParen.text ++ (target ++ (Token.rightParen.text ++
            (Token.semicolon.text ++ ("\n" ++ rest)))))) := by
        simp [← String.toList_inj, Stmt.renderAt, Token.text]
      rw [text_eq]
      simp only [Stmt.tokens, List.cons_append, List.nil_append]
      refine Spells.indent depth (Spells.token rfl (by simp [Token.endsBefore, Token.text]) ?_)
      refine Spells.leftParen (writes_name printable (by simp [Token.text]) ?_) (by simp)
      exact Spells.token rfl rfl (Spells.token rfl rfl spells.newline)
  | write value =>
      rw [Stmt.printable] at printable
      have text_eq : (Stmt.write value).renderAt depth ++ rest = indent depth ++
          (Token.kwWriteln.text ++ (Token.leftParen.text ++ (value.render ++
            (Token.rightParen.text ++ (Token.semicolon.text ++ ("\n" ++ rest)))))) := by
        simp [← String.toList_inj, Stmt.renderAt, Token.text]
      rw [text_eq]
      simp only [Stmt.tokens, List.cons_append, List.append_assoc, List.nil_append]
      refine Spells.indent depth (Spells.token rfl (by simp [Token.endsBefore, Token.text]) ?_)
      refine Spells.leftParen (writes_expr value printable (by simp [Token.text]) ?_)
        (Expr.head_tokens printable _)
      exact Spells.token rfl rfl (Spells.token rfl rfl spells.newline)

theorem spells_stmts (trees : List Stmt) (printable : Stmt.printableAll aboveLeast trees)
    (depth : Nat) {rest : String} {tokens : List Token} (spells : Spells rest tokens) :
    Spells (Stmt.renderAllAt depth trees ++ rest) (Stmt.tokensAll trees ++ tokens) := by
  cases trees with
  | nil => simpa [Stmt.renderAllAt, Stmt.tokensAll] using spells
  | cons first others =>
      rw [Stmt.printableAll, Bool.and_eq_true] at printable
      rw [Stmt.renderAllAt, Stmt.tokensAll, String.append_assoc, List.append_assoc]
      exact spells_stmt first printable.1 depth (spells_stmts others printable.2 depth spells)

end

theorem spells_names {names : List String} (plain : names.all isPlainName) {rest : String}
    {tokens : List Token} (ends : rest.toList.head?.any Char.isAlphanum = false)
    (spells : Spells rest tokens) :
    Spells (", ".intercalate names ++ rest) (nameTokens names ++ tokens) := by
  have writes : ∀ name ∈ names, Writes (id name) [.ident name] := fun name mem =>
    writes_name (List.all_eq_true.mp plain name mem)
  simpa [nameTokens] using writes_separated writes ends spells

theorem spells_declarations {names : List String} (plain : names.all isPlainName) {rest : String}
    {tokens : List Token} (spells : Spells rest tokens) :
    Spells (declarationLine names ++ rest) (declarationTokens names ++ tokens) := by
  cases names with
  | nil => simpa [declarationLine, declarationTokens] using spells
  | cons first others =>
      have text_eq : declarationLine (first :: others) ++ rest = Token.kwVar.text ++ (" " ++
          (", ".intercalate (first :: others) ++ (Token.semicolon.text ++ ("\n" ++ rest)))) := by
        simp [← String.toList_inj, declarationLine, Token.text]
      rw [text_eq]
      simp only [declarationTokens, List.cons_append, List.append_assoc, List.nil_append]
      refine Spells.spaced rfl (spells_names plain (by simp [Token.text]) ?_)
      exact Spells.token rfl rfl spells.newline

theorem spells_procedure {procedure : Procedure} (printable : procedure.printable aboveLeast)
    {rest : String} {tokens : List Token} (spells : Spells rest tokens) :
    Spells (procedure.render ++ rest) (procedure.tokens ++ tokens) := by
  simp only [Procedure.printable, Bool.and_eq_true] at printable
  obtain ⟨⟨⟨plainName, plainParams⟩, plainLocals⟩, printableBody⟩ := printable
  have text_eq : procedure.render ++ rest = Token.kwProcedure.text ++ (" " ++ (procedure.name ++
      (Token.leftParen.text ++ (", ".intercalate procedure.params ++ (Token.rightParen.text ++
        (Token.semicolon.text ++ ("\n" ++ (declarationLine procedure.locals ++
          (procedure.body.renderAt 0 ++ rest))))))))) := by
    unfold Procedure.render Stmt.render
    simp [← String.toList_inj, Token.text]
  rw [text_eq]
  simp only [Procedure.tokens, List.cons_append, List.append_assoc]
  refine Spells.spaced rfl (writes_name plainName (by simp [Token.text]) (Spells.leftParen ?_ ?_))
  · refine spells_names plainParams (by simp [Token.text]) (Spells.token rfl rfl ?_)
    refine Spells.token rfl rfl (Spells.newline (spells_declarations plainLocals ?_))
    exact spells_stmt procedure.body printableBody 0 spells
  · cases procedure.params with
    | nil => simp [nameTokens, separated]
    | cons first others => cases others <;> simp [nameTokens, separated]

theorem spells_procedures {procedures : List Procedure}
    (printable : procedures.all (·.printable aboveLeast)) {rest : String} {tokens : List Token}
    (spells : Spells rest tokens) :
    Spells (String.join (procedures.map Procedure.render) ++ rest)
      (procedures.flatMap Procedure.tokens ++ tokens) := by
  induction procedures with
  | nil => simpa using spells
  | cons first others ih =>
      rw [List.all_cons, Bool.and_eq_true] at printable
      rw [List.map_cons, String.join_cons, List.flatMap_cons, String.append_assoc,
        List.append_assoc]
      exact spells_procedure printable.1 (ih printable.2)

/-- The text of a printable program spells its tokens. -/
theorem spells_program {program : Program} (printable : program.printable aboveLeast) :
    Spells program.render program.tokens := by
  simp only [Program.printable, Bool.and_eq_true] at printable
  obtain ⟨⟨plainGlobals, printableProcedures⟩, printableBody⟩ := printable
  have text_eq : program.render = declarationLine program.globals ++
      (String.join (program.procedures.map Procedure.render) ++
        (program.body.renderAt 0 ++ ("." ++ ""))) := by
    simp [← String.toList_inj, Program.render, Stmt.render]
  rw [text_eq, Program.tokens]
  refine spells_declarations plainGlobals (spells_procedures printableProcedures ?_)
  simpa using spells_stmt program.body printableBody 0 (Spells.stop "")

end MiniPascal
