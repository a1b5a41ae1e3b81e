import MiniPascal.Token.Stream

/-!
# Parser states

A parser holds one token and the stream of what follows. A parsing step either fails somewhere or
gives a value and a parser with less text before it; `Parsed` keeps that bound, which is why the
grammar's functions end. A failed step leaves a parser that can be used further: its token is the
one that it held when the failing check or the failing call of the lexer was made.
-/

namespace MiniPascal

/-- The state of a parser: the current token, nothing at the end of the text, its line, and the
stream of what follows. -/
structure Parser where
  current : Option Token
  line : Nat
  stream : TokenStream

namespace Parser

/-- A parser at the first token of a text. -/
def ofText (text : String) : Except Error Parser :=
  match (TokenStream.ofText text).next with
  | (.ok ⟨token, line⟩, stream) => .ok ⟨token, line, stream⟩
  | (.error error, _) => .error error

/-- How many more tokens a parser can take at most. -/
def size (parser : Parser) : Nat :=
  parser.stream.ahead.length + if parser.current.isSome then 1 else 0

/-- The outcome of a parsing step: a value with a parser whose size is below a bound, or an error
with the parser where it arose. -/
inductive Parsed (α : Type) (bound : Nat) where
  | ok (value : α) (rest : Parser) (below : rest.size < bound)
  | error (cause : Error) (rest : Parser)

namespace Parsed

variable {α β : Type} {bound bound' : Nat}

/-- Goes on from a successful step. -/
def bind (step : Parsed α bound)
    (continuation : (value : α) → (rest : Parser) → rest.size < bound → Parsed β bound') :
    Parsed β bound' :=
  match step with
  | .ok value rest below => continuation value rest below
  | .error cause rest => .error cause rest

/-- The same outcome under a larger bound. -/
def weaken (step : Parsed α bound) (le : bound ≤ bound') : Parsed α bound' :=
  step.bind fun value rest below => .ok value rest (Nat.lt_of_lt_of_le below le)

/-- Changes the value of a successful step. -/
def map (change : α → β) (step : Parsed α bound) : Parsed β bound :=
  step.bind fun value rest below => .ok (change value) rest below

/-- The value or the error of a step. -/
def toExcept : Parsed α bound → Except Error α
  | .ok value _ _ => .ok value
  | .error cause _ => .error cause

/-- The parser that a step leaves. -/
def rest : Parsed α bound → Parser
  | .ok _ rest _ => rest
  | .error _ rest => rest

end Parsed

/-- Takes the current token if `select` gives a value for it. -/
def accept? {α : Type} (parser : Parser) (select : Token → Option α) :
    Option (Parsed α parser.size) :=
  match current : parser.current with
  | none => none
  | some token =>
      (select token).map fun value =>
        match stream : parser.stream.ahead with
        | .ok lexeme :: ahead =>
            .ok value ⟨some lexeme.token, lexeme.line, { parser.stream with ahead }⟩
              (by simp [size, current, stream])
        | .error error :: ahead =>
            .error error { parser with stream := { parser.stream with ahead } }
        | [] =>
            match parser.stream.last with
            | .ok line =>
                .ok value { parser with current := none, line }
                  (by simp [size, current, stream])
            | .error error => .error error parser

/-- The text of the current token. -/
def found (parser : Parser) : String :=
  match parser.current with
  | some token => token.text
  | none => "EOF"

/-- Fails because the current token is not what is asked for. -/
def unexpected {α : Type} {bound : Nat} (parser : Parser) (expected : String) :
    Parsed α bound :=
  .error (.unexpected expected parser.found parser.line) parser

/-- Takes the current token, which must have a value under `select`. -/
def require {α : Type} (parser : Parser) (expected : String) (select : Token → Option α) :
    Parsed α parser.size :=
  (parser.accept? select).getD (parser.unexpected expected)

/-- Takes the current token if it is `token`. -/
def acceptToken? (parser : Parser) (token : Token) : Option (Parsed Unit parser.size) :=
  parser.accept? fun current => if current = token then some () else none

/-- Takes the current token, which must be `token`. -/
def expect (parser : Parser) (token : Token) : Parsed Unit parser.size :=
  (parser.acceptToken? token).getD (parser.unexpected token.text)

/-- Takes the current token, which must be an identifier. -/
def name (parser : Parser) : Parsed String parser.size :=
  parser.require "identifier" Token.name?

end Parser

end MiniPascal
