import MiniPascal.Token.Basic
import MiniPascal.Tree.Basic

/-!
# The grammar

    program      = declarations { procedure } statement
    procedure    = "PROCEDURE" identifier "(" [ names ] ")" ";" declarations statement
    declarations = { "VAR" names ";" }
    names        = identifier { "," identifier }
    statement    = "WRITELN" "(" expression ")" ";" | "READLN" "(" identifier ")" ";"
                 | "BEGIN" { statement } "END" ";"
                 | "IF" condition "THEN" statement [ "ELSE" statement ]
                 | "WHILE" condition "DO" statement
                 | identifier ":=" expression ";"
    condition    = expression comparison expression
    expression   = [ expression ("+" | "-") ] term
    term         = [ term ("*" | "/" | "mod") ] factor
    factor       = "(" expression ")" | "-" factor | number | identifier [ "(" [ arguments ] ")" ]
    arguments    = expression { "," expression }

Each rule is a relation between the tokens in front of a phrase, the tree of the phrase and the
tokens behind it. Two rules look at what is behind: a name with a parenthesis behind it is no
variable, and an `IF` without `ELSE` has no `ELSE` behind it.
-/

namespace MiniPascal.Grammar

/-- The operator of a sum that a token stands for. -/
inductive Additive : Token → Operator → Prop where
  | plus : Additive .plus .add
  | minus : Additive .minus .sub

/-- The operator of a product that a token stands for. -/
inductive Multiplicative : Token → Operator → Prop where
  | times : Multiplicative .times .mul
  | divide : Multiplicative .divide .div
  | kwMod : Multiplicative .kwMod .mod

mutual

/-- Tokens that start with an expression. -/
inductive Expression : List Token → Expr → List Token → Prop where
  | term {tokens rest : List Token} {value : Expr} :
      Term tokens value rest → Expression tokens value rest
  | sum {tokens middle rest : List Token} {left right : Expr} {token : Token}
      {operator : Operator} :
      Expression tokens left (token :: middle) → Additive token operator →
      Term middle right rest → Expression tokens (.binary operator left right) rest

/-- Tokens that start with a term. -/
inductive Term : List Token → Expr → List Token → Prop where
  | factor {tokens rest : List Token} {value : Expr} :
      Factor tokens value rest → Term tokens value rest
  | product {tokens middle rest : List Token} {left right : Expr} {token : Token}
      {operator : Operator} :
      Term tokens left (token :: middle) → Multiplicative token operator →
      Factor middle right rest → Term tokens (.binary operator left right) rest

/-- Tokens that start with a factor. -/
inductive Factor : List Token → Expr → List Token → Prop where
  | parentheses {tokens rest : List Token} {value : Expr} :
      Expression tokens value (.rightParen :: rest) → Factor (.leftParen :: tokens) value rest
  | negation {tokens rest : List Token} {value : Expr} :
      Factor tokens value rest → Factor (.minus :: tokens) (.binary .sub (.num 0) value) rest
  | number {rest : List Token} (value : Int32) : Factor (.number value :: rest) (.num value) rest
  | variable {rest : List Token} (name : String) :
      rest.head? ≠ some .leftParen → Factor (.ident name :: rest) (.var name) rest
  | call {tokens rest : List Token} {args : List Expr} (name : String) :
      Arguments tokens args rest →
      Factor (.ident name :: .leftParen :: tokens) (.call name args) rest

/-- Tokens that start with the arguments of a call and the closing parenthesis. -/
inductive Arguments : List Token → List Expr → List Token → Prop where
  | none {rest : List Token} : Arguments (.rightParen :: rest) [] rest
  | some {tokens middle rest : List Token} {first : Expr} {others : List Expr} :
      Expression tokens first middle → MoreArguments middle others rest →
      Arguments tokens (first :: others) rest

/-- Tokens that start with what follows an argument, up to the closing parenthesis. -/
inductive MoreArguments : List Token → List Expr → List Token → Prop where
  | none {rest : List Token} : MoreArguments (.rightParen :: rest) [] rest
  | some {tokens middle rest : List Token} {first : Expr} {others : List Expr} :
      Expression tokens first middle → MoreArguments middle others rest →
      MoreArguments (.comma :: tokens) (first :: others) rest

end

/-- Tokens that start with a condition. -/
inductive Condition : List Token → MiniPascal.Condition → List Token → Prop where
  | compare {tokens middle rest : List Token} {left right : Expr} {relation : Comparison} :
      Expression tokens left (.relation relation :: middle) → Expression middle right rest →
      Condition tokens ⟨relation, left, right⟩ rest

mutual

/-- Tokens that start with a statement. -/
inductive Statement : List Token → Stmt → List Token → Prop where
  | write {tokens rest : List Token} {value : Expr} :
      Expression tokens value (.rightParen :: .semicolon :: rest) →
      Statement (.kwWriteln :: .leftParen :: tokens) (.write value) rest
  | read {rest : List Token} (target : String) :
      Statement (.kwReadln :: .leftParen :: .ident target :: .rightParen :: .semicolon :: rest)
        (.read target) rest
  | block {tokens rest : List Token} {body : List Stmt} :
      Statements tokens body (.kwEnd :: .semicolon :: rest) →
      Statement (.kwBegin :: tokens) (.block body) rest
  | ifThen {tokens middle rest : List Token} {test : MiniPascal.Condition} {body : Stmt} :
      Condition tokens test (.kwThen :: middle) → Statement middle body rest →
      rest.head? ≠ some .kwElse → Statement (.kwIf :: tokens) (.ifThen test body) rest
  | ifElse {tokens middle middle' rest : List Token} {test : MiniPascal.Condition}
      {thenBranch elseBranch : Stmt} :
      Condition tokens test (.kwThen :: middle) →
      Statement middle thenBranch (.kwElse :: middle') → Statement middle' elseBranch rest →
      Statement (.kwIf :: tokens) (.ifElse test thenBranch elseBranch) rest
  | loop {tokens middle rest : List Token} {test : MiniPascal.Condition} {body : Stmt} :
      Condition tokens test (.kwDo :: middle) → Statement middle body rest →
      Statement (.kwWhile :: tokens) (.loop test body) rest
  | assign {tokens rest : List Token} {value : Expr} (target : String) :
      Expression tokens value (.semicolon :: rest) →
      Statement (.ident target :: .assign :: tokens) (.assign target value) rest

/-- Tokens that start with statements, as many as there are. -/
inductive Statements : List Token → List Stmt → List Token → Prop where
  | none {tokens : List Token} : Statements tokens [] tokens
  | some {tokens middle rest : List Token} {first : Stmt} {others : List Stmt} :
      Statement tokens first middle → Statements middle others rest →
      Statements tokens (first :: others) rest

end

/-- Tokens that start with names between commas. -/
inductive Names : List Token → List String → List Token → Prop where
  | one {rest : List Token} (name : String) : Names (.ident name :: rest) [name] rest
  | more {tokens rest : List Token} {others : List String} (name : String) :
      Names tokens others rest → Names (.ident name :: .comma :: tokens) (name :: others) rest

/-- Tokens that start with declarations of variables, which may be none. -/
inductive Declarations : List Token → List String → List Token → Prop where
  | none {tokens : List Token} : Declarations tokens [] tokens
  | some {tokens middle rest : List Token} {names others : List String} :
      Names tokens names (.semicolon :: middle) → Declarations middle others rest →
      Declarations (.kwVar :: tokens) (names ++ others) rest

/-- Tokens that start with the parameters of a procedure and the closing parenthesis. -/
inductive Parameters : List Token → List String → List Token → Prop where
  | none {rest : List Token} : Parameters (.rightParen :: rest) [] rest
  | some {tokens rest : List Token} {names : List String} :
      Names tokens names (.rightParen :: rest) → Parameters tokens names rest

/-- Tokens that start with a procedure. -/
inductive Procedure : List Token → MiniPascal.Procedure → List Token → Prop where
  | declare {tokens middle middle' rest : List Token} {params locals : List String} {body : Stmt}
      (name : String) :
      Parameters tokens params (.semicolon :: middle) → Declarations middle locals middle' →
      Statement middle' body rest →
      Procedure (.kwProcedure :: .ident name :: .leftParen :: tokens) ⟨name, params, locals, body⟩
        rest

/-- Tokens that start with procedures, which may be none. -/
inductive Procedures : List Token → List MiniPascal.Procedure → List Token → Prop where
  | none {tokens : List Token} : Procedures tokens [] tokens
  | some {tokens middle rest : List Token} {first : MiniPascal.Procedure}
      {others : List MiniPascal.Procedure} :
      Procedure tokens first middle → Procedures middle others rest →
      Procedures tokens (first :: others) rest

/-- Tokens that are a program. -/
inductive Program : List Token → MiniPascal.Program → Prop where
  | whole {tokens middle middle' : List Token} {globals : List String}
      {procedures : List MiniPascal.Procedure} {body : Stmt} :
      Declarations tokens globals middle → Procedures middle procedures middle' →
      Statement middle' body [] → Program tokens ⟨globals, procedures, body⟩

mutual

theorem Expression.head_ne_rightParen : {tokens rest : List Token} → {value : Expr} →
    Expression tokens value rest → tokens.head? ≠ some .rightParen
  | _, _, _, .term term => term.head_ne_rightParen
  | _, _, _, .sum left _ _ => left.head_ne_rightParen

theorem Term.head_ne_rightParen : {tokens rest : List Token} → {value : Expr} →
    Term tokens value rest → tokens.head? ≠ some .rightParen
  | _, _, _, .factor factor => factor.head_ne_rightParen
  | _, _, _, .product left _ _ => left.head_ne_rightParen

theorem Factor.head_ne_rightParen {tokens rest : List Token} {value : Expr}
    (factor : Factor tokens value rest) : tokens.head? ≠ some .rightParen := by
  cases factor <;> simp

end

theorem MoreArguments.head_ne_leftParen {tokens rest : List Token} {args : List Expr}
    (derived : MoreArguments tokens args rest) : tokens.head? ≠ Option.some .leftParen := by
  cases derived <;> simp

theorem Names.head_ne_rightParen {tokens rest : List Token} {names : List String}
    (derived : Names tokens names rest) : tokens.head? ≠ some .rightParen := by
  cases derived <;> simp

/-- A statement starts with no token that ends a block, a declaration or a list of procedures. -/
theorem Statement.head {tokens rest : List Token} {stmt : Stmt}
    (derived : Statement tokens stmt rest) :
    tokens.head? ≠ some .kwEnd ∧ tokens.head? ≠ some .kwVar ∧
      tokens.head? ≠ some .kwProcedure := by
  cases derived <;> simp

end MiniPascal.Grammar
