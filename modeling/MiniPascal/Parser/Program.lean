import MiniPascal.Parser.Basic
import MiniPascal.Tree.Basic

/-!
# Parsing programs

    program      = declarations { procedure } statement
    procedure    = "PROCEDURE" identifier "(" [ names ] ")" ";" declarations statement
    declarations = { "VAR" names ";" }
    names        = identifier { "," identifier }

    statement    = "WRITELN" "(" expression ")" ";" | "READLN" "(" identifier ")" ";"
                 | "BEGIN" { statement } "END" ";"
                 | "IF" condition "THEN" statement [ "ELSE" statement ]
                 | "WHILE" condition "DO" statement
                 | identifier ":=" expression ";"

    condition    = expression comparison expression
    expression   = term { ("+" | "-") term }
    term         = factor { ("*" | "/" | "mod") factor }
    factor       = "(" expression ")" | "-" factor | number | identifier [ "(" [ arguments ] ")" ]
    arguments    = expression { "," expression }

The operators of one level associate to the left. An identifier with a parenthesis behind it in an
expression is always a call. An `ELSE` belongs to the nearest `IF` before it that has none. Nothing
may follow the main statement but the end of the text.
-/

namespace MiniPascal.Parser

/-! ## Expressions -/

mutual

/-- Parses an expression. -/
def expression (parser : Parser) : Parsed Expr parser.size :=
  (term parser).bind fun left rest _ => (sum left rest).weaken (by omega)
termination_by 3 * parser.size + 2

/-- Parses what may follow the left operand of a sum. -/
def sum (left : Expr) (parser : Parser) : Parsed Expr (parser.size + 1) :=
  match parser.accept? Token.additive? with
  | none => .ok left parser (by omega)
  | some step =>
      step.bind fun operator rest _ =>
        (term rest).bind fun right rest _ =>
          (sum (.binary operator left right) rest).weaken (by omega)
termination_by 3 * parser.size + 2

/-- Parses a term. -/
def term (parser : Parser) : Parsed Expr parser.size :=
  (factor parser).bind fun left rest _ => (product left rest).weaken (by omega)
termination_by 3 * parser.size + 1

/-- Parses what may follow the left operand of a product. -/
def product (left : Expr) (parser : Parser) : Parsed Expr (parser.size + 1) :=
  match parser.accept? Token.multiplicative? with
  | none => .ok left parser (by omega)
  | some step =>
      step.bind fun operator rest _ =>
        (factor rest).bind fun right rest _ =>
          (product (.binary operator left right) rest).weaken (by omega)
termination_by 3 * parser.size + 1

/-- Parses a factor. -/
def factor (parser : Parser) : Parsed Expr parser.size :=
  match parser.current with
  | some .leftParen =>
      (parser.expect .leftParen).bind fun _ rest _ =>
        (expression rest).bind fun inner rest _ =>
          ((rest.expect .rightParen).map fun _ => inner).weaken (by omega)
  | some .minus =>
      (parser.expect .minus).bind fun _ rest _ =>
        ((factor rest).map Expr.negation).weaken (by omega)
  | some (.number value) => (parser.expect (.number value)).map fun _ => .num value
  | some (.ident name) =>
      (parser.expect (.ident name)).bind fun _ rest _ =>
        match rest.acceptToken? .leftParen with
        | none => .ok (.var name) rest (by omega)
        | some step =>
            step.bind fun _ rest _ =>
              ((arguments rest).map (Expr.call name)).weaken (by omega)
  | _ => parser.unexpected "factor"
termination_by 3 * parser.size

/-- Parses the arguments of a call up to the closing parenthesis. -/
def arguments (parser : Parser) : Parsed (List Expr) parser.size :=
  match parser.acceptToken? .rightParen with
  | some step => step.map fun _ => []
  | none =>
      (expression parser).bind fun first rest _ =>
        ((moreArguments rest).map (first :: ·)).weaken (by omega)
termination_by 3 * parser.size + 3

/-- Parses the arguments that follow one, up to the closing parenthesis. -/
def moreArguments (parser : Parser) : Parsed (List Expr) parser.size :=
  match parser.acceptToken? .comma with
  | none => (parser.expect .rightParen).map fun _ => []
  | some step =>
      step.bind fun _ rest _ =>
        (expression rest).bind fun next rest _ =>
          ((moreArguments rest).map (next :: ·)).weaken (by omega)
termination_by 3 * parser.size + 3

end

/-- Parses a condition. -/
def condition (parser : Parser) : Parsed Condition parser.size :=
  (expression parser).bind fun left rest _ =>
    (rest.require "relational operator" Token.comparison?).bind fun relation rest _ =>
      ((expression rest).map fun right => ⟨relation, left, right⟩).weaken (by omega)

/-! ## Statements -/

mutual

/-- Parses a statement. -/
def statement (parser : Parser) : Parsed Stmt parser.size :=
  match parser.current with
  | some .kwWriteln =>
      (parser.expect .kwWriteln).bind fun _ rest _ =>
        (rest.expect .leftParen).bind fun _ rest _ =>
          (expression rest).bind fun value rest _ =>
            (rest.expect .rightParen).bind fun _ rest _ =>
              ((rest.expect .semicolon).map fun _ => .write value).weaken (by omega)
  | some .kwReadln =>
      (parser.expect .kwReadln).bind fun _ rest _ =>
        (rest.expect .leftParen).bind fun _ rest _ =>
          rest.name.bind fun target rest _ =>
            (rest.expect .rightParen).bind fun _ rest _ =>
              ((rest.expect .semicolon).map fun _ => .read target).weaken (by omega)
  | some .kwBegin =>
      (parser.expect .kwBegin).bind fun _ rest _ =>
        (statements rest).bind fun body rest _ =>
          (rest.expect .kwEnd).bind fun _ rest _ =>
            ((rest.expect .semicolon).map fun _ => .block body).weaken (by omega)
  | some .kwIf =>
      (parser.expect .kwIf).bind fun _ rest _ =>
        (condition rest).bind fun test rest _ =>
          (rest.expect .kwThen).bind fun _ rest _ =>
            (statement rest).bind fun thenBranch rest _ =>
              match rest.acceptToken? .kwElse with
              | none => .ok (.ifThen test thenBranch) rest (by omega)
              | some step =>
                  step.bind fun _ rest _ =>
                    ((statement rest).map (.ifElse test thenBranch)).weaken (by omega)
  | some .kwWhile =>
      (parser.expect .kwWhile).bind fun _ rest _ =>
        (condition rest).bind fun test rest _ =>
          (rest.expect .kwDo).bind fun _ rest _ =>
            ((statement rest).map (.loop test)).weaken (by omega)
  | some (.ident target) =>
      (parser.expect (.ident target)).bind fun _ rest _ =>
        (rest.expect .assign).bind fun _ rest _ =>
          (expression rest).bind fun value rest _ =>
            ((rest.expect .semicolon).map fun _ => .assign target value).weaken (by omega)
  | _ => parser.unexpected "statement"
termination_by 2 * parser.size

/-- Parses the statements in front of an `END`. -/
def statements (parser : Parser) : Parsed (List Stmt) (parser.size + 1) :=
  if parser.current = some .kwEnd then
    .ok [] parser (by omega)
  else
    (statement parser).bind fun first rest _ =>
      ((statements rest).map (first :: ·)).weaken (by omega)
termination_by 2 * parser.size + 1

end

/-! ## Programs -/

/-- Parses what may follow a name in a list of names. -/
def moreNames (parser : Parser) : Parsed (List String) (parser.size + 1) :=
  match parser.acceptToken? .comma with
  | none => .ok [] parser (by omega)
  | some step =>
      step.bind fun _ rest _ =>
        rest.name.bind fun next rest _ =>
          ((moreNames rest).map (next :: ·)).weaken (by omega)
termination_by parser.size

/-- Parses a list of at least one name. -/
def names (parser : Parser) : Parsed (List String) parser.size :=
  parser.name.bind fun first rest _ =>
    ((moreNames rest).map (first :: ·)).weaken (by omega)

/-- Parses declarations of variables, which may be none. -/
def declarations (parser : Parser) : Parsed (List String) (parser.size + 1) :=
  match parser.acceptToken? .kwVar with
  | none => .ok [] parser (by omega)
  | some step =>
      step.bind fun _ rest _ =>
        (names rest).bind fun declared rest _ =>
          (rest.expect .semicolon).bind fun _ rest _ =>
            ((declarations rest).map (declared ++ ·)).weaken (by omega)
termination_by parser.size

/-- Parses the parameters of a procedure up to the closing parenthesis. -/
def parameters (parser : Parser) : Parsed (List String) parser.size :=
  match parser.acceptToken? .rightParen with
  | some step => step.map fun _ => []
  | none =>
      (names parser).bind fun params rest _ =>
        ((rest.expect .rightParen).map fun _ => params).weaken (by omega)

/-- Parses a procedure. -/
def procedure (parser : Parser) : Parsed Procedure parser.size :=
  (parser.expect .kwProcedure).bind fun _ rest _ =>
    rest.name.bind fun name rest _ =>
      (rest.expect .leftParen).bind fun _ rest _ =>
        (parameters rest).bind fun params rest _ =>
          (rest.expect .semicolon).bind fun _ rest _ =>
            (declarations rest).bind fun locals rest _ =>
              ((statement rest).map (Procedure.mk name params locals)).weaken (by omega)

/-- Parses procedures, which may be none. -/
def procedures (parser : Parser) : Parsed (List Procedure) (parser.size + 1) :=
  if parser.current = some .kwProcedure then
    (procedure parser).bind fun first rest _ =>
      ((procedures rest).map (first :: ·)).weaken (by omega)
  else
    .ok [] parser (by omega)
termination_by parser.size

/-- Parses a program, behind which the text must end. -/
def program (parser : Parser) : Parsed Program parser.size :=
  (declarations parser).bind fun globals rest _ =>
    (procedures rest).bind fun procedures rest _ =>
      (statement rest).bind fun body rest _ =>
        if rest.current = none then .ok ⟨globals, procedures, body⟩ rest (by omega)
        else rest.unexpected "EOF"

end MiniPascal.Parser

namespace MiniPascal

/-- The program that a text spells. -/
def parse (text : String) : Except Error Program := do
  let parser ← Parser.ofText text
  parser.program.toExcept

end MiniPascal
