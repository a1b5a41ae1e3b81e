import MiniPascal.Text.Blank
import MiniPascal.Token.Basic

/-!
# Reading tokens

`Lexer.next` reads one token of a text. A gap of blanks and comments in front of it is skipped,
and the text ends at a full stop. A failing call leaves the lexer where it stopped: behind a lone
colon, an over-long number or a comment without end, but in front of a character that starts no
token. `Lexer.next_shorter` says that a call that gives a token uses up some of the text.
-/

namespace MiniPascal

/-- The line behind a character on `line`. -/
def lineAfter (character : Char) (line : Nat) : Nat :=
  if character = '\n' then line + 1 else line

/-- What the text between two tokens is part of. -/
inductive Gap where
  /-- Blanks, where a comment may start. -/
  | blank
  /-- A comment that ends with its line. -/
  | lineComment
  /-- A comment that starts on `line` and ends with `*)`. -/
  | blockComment (line : Nat)
  deriving DecidableEq, Repr

/-- The end of a gap. -/
inductive GapEnd where
  /-- The text that follows the gap and its line. -/
  | text (rest : List Char) (line : Nat)
  /-- The text ended on `line` in a block comment that starts on `start`. -/
  | unterminated (start line : Nat)
  deriving DecidableEq, Repr

/-- Skips the rest of a gap. The star that opens a block comment does not close it. -/
def Gap.skip : Gap → List Char → Nat → GapEnd
  | .blockComment start, [], line => .unterminated start line
  | _, [], line => .text [] line
  | .blank, '/' :: '/' :: rest, line => Gap.lineComment.skip rest line
  | .blank, '(' :: '*' :: rest, line => (Gap.blockComment line).skip rest line
  | .blank, character :: rest, line =>
      if Text.isBlank character then Gap.blank.skip rest (lineAfter character line)
      else .text (character :: rest) line
  | .lineComment, character :: rest, line =>
      if character = '\n' then Gap.blank.skip rest (line + 1)
      else Gap.lineComment.skip rest line
  | .blockComment _, '*' :: ')' :: rest, line => Gap.blank.skip rest line
  | .blockComment start, character :: rest, line =>
      (Gap.blockComment start).skip rest (lineAfter character line)

/-- A gap does not lengthen the text. -/
theorem Gap.length_le_of_skip {gap : Gap} {text rest : List Char} {line line' : Nat}
    (ended : gap.skip text line = .text rest line') : rest.length ≤ text.length := by
  fun_induction Gap.skip gap text line <;> grind

/-- The reader of a text: what is left of it, and the line on which that starts. -/
structure Lexer where
  rest : List Char
  line : Nat
  deriving DecidableEq, Repr

namespace Lexer

/-- A reader at the start of a text. -/
def ofText (text : String) : Lexer :=
  ⟨text.toList, 1⟩

/-- The token of a run of digits. -/
def numberToken (digits : List Char) (line : Nat) : Except Error Token :=
  match Decimal.read? digits with
  | some value => .ok (.number value)
  | none => .error (.invalidNumber (String.ofList digits) line)

/-- Reads the token that starts with `first`, preferring the longer of two. Gives also the text
behind it. -/
def token (first : Char) (rest : List Char) (line : Nat) : Except Error Token × List Char :=
  if first.isAlpha then
    (.ok (Token.ofWord (String.ofList (first :: rest.takeWhile Char.isAlphanum))),
      rest.dropWhile Char.isAlphanum)
  else if first.isDigit then
    (numberToken (first :: rest.takeWhile Char.isDigit) line, rest.dropWhile Char.isDigit)
  else
    match first, rest with
    | ':', '=' :: rest => (.ok .assign, rest)
    | ':', rest => (.error (.lexical "Expected '=' after ':'" line), rest)
    | '<', '=' :: rest => (.ok (.relation .le), rest)
    | '<', '>' :: rest => (.ok (.relation .ne), rest)
    | '<', rest => (.ok (.relation .lt), rest)
    | '>', '=' :: rest => (.ok (.relation .ge), rest)
    | '>', rest => (.ok (.relation .gt), rest)
    | '=', rest => (.ok (.relation .eq), rest)
    | '+', rest => (.ok .plus, rest)
    | '-', rest => (.ok .minus, rest)
    | '*', rest => (.ok .times, rest)
    | '/', rest => (.ok .divide, rest)
    | '(', rest => (.ok .leftParen, rest)
    | ')', rest => (.ok .rightParen, rest)
    | ',', rest => (.ok .comma, rest)
    | ';', rest => (.ok .semicolon, rest)
    | first, rest => (.error (.unknownCharacter first line), first :: rest)

/-- What one call of the reader gives: the token, or nothing at the end of the text, with its
line. -/
structure Reading where
  token : Option Token
  line : Nat
  deriving DecidableEq, Repr

/-- Reads the next token. -/
def next (lexer : Lexer) : Except Error Reading × Lexer :=
  match Gap.blank.skip lexer.rest lexer.line with
  | .unterminated start line => (.error (.unterminatedComment start), ⟨[], line⟩)
  | .text [] line => (.ok ⟨none, line⟩, ⟨[], line⟩)
  | .text ('.' :: rest) line => (.ok ⟨none, line⟩, ⟨'.' :: rest, line⟩)
  | .text (first :: rest) line =>
      match token first rest line with
      | (.ok read, rest) => (.ok ⟨some read, line⟩, ⟨rest, line⟩)
      | (.error error, rest) => (.error error, ⟨rest, line⟩)

/-- Reading a token uses up its first character. -/
theorem length_le_of_token {first : Char} {rest rest' : List Char} {line : Nat} {read : Token}
    (result : token first rest line = (.ok read, rest')) : rest'.length ≤ rest.length := by
  have dropped (select : Char → Bool) : (rest.dropWhile select).length ≤ rest.length :=
    (List.dropWhile_sublist select).length_le
  unfold token at result
  split at result
  · grind
  · split at result
    · grind
    · split at result <;> grind

/-- A call that gives a token leaves less text. -/
theorem next_shorter {lexer after : Lexer} {read : Token} {line : Nat}
    (result : lexer.next = (.ok ⟨some read, line⟩, after)) :
    after.rest.length < lexer.rest.length := by
  unfold next at result
  split at result
  · simp at result
  · simp at result
  · simp at result
  · next first rest _ _ ended =>
      have skipped := Gap.length_le_of_skip ended
      split at result
      · next taken =>
          have used := length_le_of_token taken
          simp only [Prod.mk.injEq] at result
          simp only [← result.2, List.length_cons] at skipped ⊢
          omega
      · simp at result

end Lexer

end MiniPascal
