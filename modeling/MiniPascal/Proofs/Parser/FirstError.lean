import Mathlib.Order.Bounds.Basic
import MiniPascal.Proofs.Parser.Correctness
import MiniPascal.Proofs.Token.Tokenisation

/-!
# Errors at the first wrong token

Tokens are viable if some continuation makes them a program. A parser takes tokens only while they
stay viable: parsing a text fails at the first token that makes the tokens up to it not viable, and
what follows that token plays no part. If there is no such token, the lexer's first error is the
error of the text; without one, the end of the text shows whether its tokens are a program.
-/

namespace MiniPascal

/-! ### What a lexer finds -/

/-- The tokens of a text up to its end or up to the first error of the lexer, with the line of the
end or the error. -/
structure Findings where
  lexemes : List Lexeme
  ending : Except Error Nat
  deriving DecidableEq

/-- The tokens without their lines. -/
def Findings.tokens (found : Findings) : List Token :=
  found.lexemes.map (·.token)

/-- The stream gives the tokens and then the end or an error. -/
inductive TokenStream.Holds : TokenStream → List Lexeme → Except Error Nat → Prop where
  | stop {stream : TokenStream} {ending : Except Error Nat} :
      stream.next.1 = ending.map (⟨none, ·⟩) → Holds stream [] ending
  | token {stream : TokenStream} {lexeme : Lexeme} {lexemes : List Lexeme}
      {ending : Except Error Nat} : stream.next.1 = .ok ⟨some lexeme.token, lexeme.line⟩ →
      Holds stream.next.2 lexemes ending → Holds stream (lexeme :: lexemes) ending

namespace TokenStream.Holds

variable {stream : TokenStream} {lexemes : List Lexeme} {ending : Except Error Nat}

theorem of_token {lexeme : Lexeme} {ahead : List (Except Error Lexeme)}
    (holds : stream.Holds lexemes ending) (front : stream.ahead = .ok lexeme :: ahead) :
    ∃ others, lexemes = lexeme :: others ∧ Holds ⟨ahead, stream.last⟩ others ending := by
  have next_eq : stream.next = (.ok ⟨some lexeme.token, lexeme.line⟩, ⟨ahead, stream.last⟩) := by
    rw [next, front]
  cases holds with
  | stop answer =>
      rw [next_eq] at answer
      cases ending <;> cases answer
  | @token _ lexeme' others _ answer holds =>
      rw [next_eq] at answer holds
      obtain rfl : lexeme = lexeme' := by
        cases lexeme
        cases lexeme'
        cases answer
        rfl
      exact ⟨others, rfl, holds⟩

theorem of_last (holds : stream.Holds lexemes ending) (front : stream.ahead = []) :
    lexemes = [] ∧ ending = stream.last := by
  have next_eq : stream.next.1 = stream.last.map (⟨none, ·⟩) := by
    rw [next, front]
  cases holds with
  | stop answer =>
      rw [next_eq] at answer
      cases last : stream.last <;> cases ending <;> simp_all [Except.map]
  | token answer _ =>
      rw [next_eq] at answer
      cases last : stream.last <;> simp [last, Except.map] at answer

end TokenStream.Holds

namespace Parser

variable {parser rest : Parser} {token : Token} {tokens : List Token}
variable {lexemes : List Lexeme} {ending : Except Error Nat} {cause : Error}

/-- The tokens in front of the parser, and what is behind them. -/
inductive Sees : Parser → List Lexeme → Except Error Nat → Prop where
  | ended {parser : Parser} : parser.current = none → Sees parser [] (.ok parser.line)
  | token {parser : Parser} {ending : Except Error Nat} (lexeme : Lexeme) (lexemes : List Lexeme) :
      parser.current = some lexeme.token → parser.line = lexeme.line →
      parser.stream.Holds lexemes ending → Sees parser (lexeme :: lexemes) ending

namespace Sees

theorem takes (sees : parser.Sees lexemes ending) (takes : parser.Takes token rest) :
    ∃ lexeme lexemes', lexemes = lexeme :: lexemes' ∧ lexeme.token = token ∧
      rest.Sees lexemes' ending := by
  cases sees with
  | ended current => cases current.symm.trans takes.current
  | token lexeme lexemes current line holds =>
      refine ⟨lexeme, lexemes, rfl, Option.some.inj (current.symm.trans takes.current), ?_⟩
      cases takes with
      | token lexeme' ahead _ stream =>
          obtain ⟨others, rfl, holds'⟩ := holds.of_token stream
          exact .token lexeme' others rfl rfl holds'
      | last line' _ stream last =>
          obtain ⟨rfl, rfl⟩ := holds.of_last stream
          rw [last]
          exact .ended rfl

theorem consumes (sees : parser.Sees lexemes ending) (consumes : parser.Consumes tokens rest) :
    ∃ taken left, lexemes = taken ++ left ∧ taken.map (·.token) = tokens ∧
      rest.Sees left ending := by
  induction consumes generalizing lexemes with
  | none => exact ⟨[], lexemes, rfl, rfl, sees⟩
  | some takes _ ih =>
      obtain ⟨lexeme, lexemes', rfl, rfl, sees'⟩ := sees.takes takes
      obtain ⟨taken, left, rfl, rfl, seesLeft⟩ := ih sees'
      exact ⟨lexeme :: taken, left, rfl, rfl, seesLeft⟩

theorem breaks (sees : parser.Sees lexemes ending) (breaks : Breaks cause parser tokens) :
    lexemes.map (·.token) = tokens ∧ ending = .error cause := by
  induction breaks generalizing lexemes with
  | here current failed =>
      cases sees with
      | ended current' => cases current'.symm.trans current
      | token lexeme lexemes current' _ holds =>
          cases current'.symm.trans current
          cases holds with
          | stop next =>
              cases ending <;> simp_all [Except.map]
          | token next _ => cases next.symm.trans failed
  | later takes _ ih =>
      obtain ⟨lexeme, lexemes', rfl, rfl, sees'⟩ := sees.takes takes
      obtain ⟨rfl, ended⟩ := ih sees'
      exact ⟨rfl, ended⟩

end Sees

end Parser

namespace Grammar

/-- Some continuation makes the tokens a program. -/
def Viable (tokens : List Token) : Prop :=
  ∃ more program, Program (tokens ++ more) program

theorem Viable.of_append {tokens more : List Token} (viable : Viable (tokens ++ more)) :
    Viable tokens := by
  obtain ⟨rest, program, derived⟩ := viable
  rw [List.append_assoc] at derived
  exact ⟨more ++ rest, program, derived⟩

theorem Viable.take {tokens : List Token} (viable : Viable tokens) (k : Nat) :
    Viable (tokens.take k) := by
  rw [← List.take_append_drop k tokens] at viable
  exact viable.of_append

theorem Program.viable {tokens : List Token} {program : MiniPascal.Program}
    (derived : Program tokens program) : Viable tokens :=
  ⟨[], program, by rwa [List.append_nil]⟩

end Grammar

open Grammar

namespace Parser

variable {parser rest : Parser} {tokens : List Token}

end Parser

/-- How parsing can end, by what the lexer finds. -/
inductive Outcome (found : Findings) : Except Error Program → Prop where
  /-- A token makes the tokens up to it not viable. -/
  | wrong {expected : String} (before : List Lexeme) (lexeme : Lexeme) (behind : List Lexeme) :
      found.lexemes = before ++ lexeme :: behind → Viable (before.map (·.token)) →
      ¬Viable (before.map (·.token) ++ [lexeme.token]) →
      Outcome found (.error (.unexpected expected lexeme.token.text lexeme.line))
  /-- The lexer fails behind viable tokens. -/
  | broken {error : Error} : Viable found.tokens → found.ending = .error error →
      Outcome found (.error error)
  /-- The text ends behind viable tokens that are no program. -/
  | short {expected : String} {line : Nat} : Viable found.tokens → found.ending = .ok line →
      (∀ program, ¬Grammar.Program found.tokens program) →
      Outcome found (.error (.unexpected expected "EOF" line))
  | program {program : Program} {line : Nat} : found.ending = .ok line →
      Grammar.Program found.tokens program → Outcome found (.ok program)

end MiniPascal
