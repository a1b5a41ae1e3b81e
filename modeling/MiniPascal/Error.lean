/-!
# Errors

Everything that can go wrong between reading a source text and writing its assembly, with the
wording in one place.
-/

namespace MiniPascal

/-- The cause of a failure. Lines count from one. -/
inductive Error where
  /-- The source file cannot be read as a file. -/
  | fileRead (message : String)
  /-- The system refused to read or write. -/
  | io (message : String)
  /-- A token breaks off. -/
  | lexical (message : String) (line : Nat)
  /-- No token starts with this character. -/
  | unknownCharacter (character : Char) (line : Nat)
  /-- A block comment that starts on `line` is never closed. -/
  | unterminatedComment (line : Nat)
  /-- A run of digits that is no 32-bit value. -/
  | invalidNumber (digits : String) (line : Nat)
  /-- The grammar asks for one thing and the text has another. -/
  | unexpected (expected found : String) (line : Nat)
  /-- The right operand of a division is zero. -/
  | byZero (operation : String)
  /-- A call names no known procedure. -/
  | undefinedProcedure (name : String)
  /-- A call gives fewer arguments than the procedure has parameters. -/
  | arity (name : String) (expected found : Nat)
  /-- A line of input is missing or holds no value. -/
  | input (message : String)
  /-- The program has no assembly. -/
  | generation (message : String)
  /-- Any other failure. -/
  | other (message : String)
  deriving DecidableEq, Repr

/-- The wording of an error. -/
def Error.message : Error → String
  | .fileRead message => s!"File read error: {message}"
  | .io message => s!"I/O error: {message}"
  | .lexical message line => s!"Lexer error at line {line}: {message}"
  | .unknownCharacter character line =>
      s!"Character not recognized '{character}' at line {line}"
  | .unterminatedComment line => s!"Unterminated comment starting at line {line}"
  | .invalidNumber digits line => s!"Invalid number '{digits}' at line {line}"
  | .unexpected expected found line =>
      s!"Syntax error at line {line}: expected '{expected}', found '{found}'"
  | .byZero operation => s!"Arithmetic error: {operation} by zero"
  | .undefinedProcedure name => s!"Undefined procedure '{name}'"
  | .arity name expected found =>
      s!"Procedure '{name}' expects {expected} argument(s) but was called with {found}"
  | .input message => s!"Input error: {message}"
  | .generation message => s!"Code generation error: {message}"
  | .other message => s!"Error: {message}"

end MiniPascal
