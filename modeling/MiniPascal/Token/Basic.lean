import MiniPascal.Text.Decimal
import MiniPascal.Tree.Operator

/-!
# Tokens

The words of the language. Keywords are spelled in capitals, `mod` apart, and every other word is
an identifier.
-/

namespace MiniPascal

/-- A word of the language. -/
inductive Token where
  | ident (name : String)
  | number (value : Int32)
  | kwVar
  | kwProcedure
  | kwBegin
  | kwEnd
  | kwIf
  | kwThen
  | kwElse
  | kwWhile
  | kwDo
  | kwWriteln
  | kwReadln
  | kwMod
  | assign
  | relation (comparison : Comparison)
  | plus
  | minus
  | times
  | divide
  | leftParen
  | rightParen
  | comma
  | semicolon
  deriving DecidableEq, Repr

namespace Token

/-- The spelling of a token. A number is spelled without leading zeros. -/
def text : Token → String
  | .ident name => name
  | .number value => Decimal.render value
  | .kwVar => "VAR"
  | .kwProcedure => "PROCEDURE"
  | .kwBegin => "BEGIN"
  | .kwEnd => "END"
  | .kwIf => "IF"
  | .kwThen => "THEN"
  | .kwElse => "ELSE"
  | .kwWhile => "WHILE"
  | .kwDo => "DO"
  | .kwWriteln => "WRITELN"
  | .kwReadln => "READLN"
  | .kwMod => "mod"
  | .assign => ":="
  | .relation comparison => comparison.symbol
  | .plus => "+"
  | .minus => "-"
  | .times => "*"
  | .divide => "/"
  | .leftParen => "("
  | .rightParen => ")"
  | .comma => ","
  | .semicolon => ";"

/-- The keywords. -/
def keywords : List Token :=
  [.kwVar, .kwProcedure, .kwBegin, .kwEnd, .kwIf, .kwThen, .kwElse, .kwWhile, .kwDo, .kwWriteln,
    .kwReadln, .kwMod]

/-- The token that a word spells: the keyword of that spelling, or else an identifier. -/
def ofWord (word : String) : Token :=
  (keywords.find? (·.text = word)).getD (.ident word)

/-- The operator of a sum that a token stands for. -/
def additive? : Token → Option Operator
  | .plus => some .add
  | .minus => some .sub
  | _ => none

/-- The operator of a product that a token stands for. -/
def multiplicative? : Token → Option Operator
  | .times => some .mul
  | .divide => some .div
  | .kwMod => some .mod
  | _ => none

/-- The comparison that a token stands for. -/
def comparison? : Token → Option Comparison
  | .relation comparison => some comparison
  | _ => none

/-- The name that an identifier stands for. -/
def name? : Token → Option String
  | .ident name => some name
  | _ => none

end Token

/-- A token and the line on which it starts. -/
structure Lexeme where
  token : Token
  line : Nat
  deriving DecidableEq, Repr

end MiniPascal
