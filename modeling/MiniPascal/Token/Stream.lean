import MiniPascal.Token.Lexer

/-!
# Token streams

Calling a lexer again and again gives finitely many different answers: each call either uses up
some of the text or repeats for ever. `TokenStream.ofText` holds the answers in order.
`scan` lists the tokens of a text.
-/

namespace MiniPascal

/-- The answers of a lexer: those of `ahead` once each, then `last` for ever, which is either the
line on which the text ends or an error. -/
structure TokenStream where
  ahead : List (Except Error Lexeme)
  last : Except Error Nat

namespace TokenStream

/-- The stream with one more answer in front. -/
def push (answer : Except Error Lexeme) (stream : TokenStream) : TokenStream :=
  { stream with ahead := answer :: stream.ahead }

/-- The answers of a lexer. A failing call that uses up no text fails in the same way for ever. -/
def ofLexer (lexer : Lexer) : TokenStream :=
  match result : lexer.next with
  | (.ok ⟨some token, line⟩, after) =>
      have _shorter := Lexer.next_shorter result
      (ofLexer after).push (.ok ⟨token, line⟩)
  | (.ok ⟨none, line⟩, _) => ⟨[], .ok line⟩
  | (.error error, after) =>
      if after.rest.length < lexer.rest.length then (ofLexer after).push (.error error)
      else ⟨[], .error error⟩
termination_by lexer.rest.length

/-- The answers of a fresh lexer on a text. -/
def ofText (text : String) : TokenStream :=
  ofLexer (Lexer.ofText text)

/-- Takes the next answer: a token, or nothing at the end of the text, with its line. -/
def next (stream : TokenStream) : Except Error Lexer.Reading × TokenStream :=
  match stream.ahead with
  | .ok lexeme :: rest => (.ok ⟨some lexeme.token, lexeme.line⟩, { stream with ahead := rest })
  | .error error :: rest => (.error error, { stream with ahead := rest })
  | [] => (stream.last.map fun line => ⟨none, line⟩, stream)

/-- The tokens of a stream, unless an error comes before its end. -/
def tokens (stream : TokenStream) : Except Error (List Lexeme) := do
  let lexemes ← stream.ahead.mapM id
  let _ ← stream.last
  return lexemes

end TokenStream

/-- The tokens of a text, or the first error on the way to its end. -/
def scan (text : String) : Except Error (List Lexeme) :=
  (TokenStream.ofText text).tokens

end MiniPascal
