import Mathlib.Data.List.Basic
import MiniPascal.Proofs.Parser.Completeness
import MiniPascal.Proofs.Parser.Viability
import MiniPascal.Proofs.Token.Spelling

/-!
# Parsing is derivation

A text parses to a tree exactly if its tokens derive the tree in the grammar, and no tokens derive
two trees.
-/

namespace MiniPascal

section Scanning

variable {text : String} {parser : Parser} {tokens : List Token} {lexemes : List Lexeme}

/-- A parser at the start of a text reads the tokens of the text. -/
theorem reads_of_scan (scanned : scan text = .ok lexemes) :
    ∃ parser, Parser.ofText text = .ok parser ∧ parser.Reads (lexemes.map (·.token)) := by
  obtain ⟨ahead, line, last⟩ := scan_eq_ok.mp scanned
  cases lexemes with
  | nil =>
      refine ⟨⟨none, line, TokenStream.ofText text⟩, ?_, rfl⟩
      simp [Parser.ofText, TokenStream.next, ahead, last, Except.map]
  | cons lexeme lexemes =>
      refine ⟨⟨lexeme.token, lexeme.line, ⟨lexemes.map .ok, (TokenStream.ofText text).last⟩⟩, ?_,
        rfl, ⟨lexemes, rfl, rfl⟩, line, last⟩
      simp [Parser.ofText, TokenStream.next, ahead]

/-- What a parser at the start of a text reads are the tokens of the text. -/
theorem scan_of_reads (started : Parser.ofText text = .ok parser) (reads : parser.Reads tokens) :
    ∃ lexemes, scan text = .ok lexemes ∧ lexemes.map (·.token) = tokens := by
  simp only [scan_eq_ok]
  cases stream : (TokenStream.ofText text).ahead with
  | nil =>
      cases ending : (TokenStream.ofText text).last with
      | error error => simp [Parser.ofText, TokenStream.next, stream, ending, Except.map] at started
      | ok line =>
          obtain rfl : ⟨none, line, TokenStream.ofText text⟩ = parser := by
            simpa [Parser.ofText, TokenStream.next, stream, ending, Except.map] using started
          have ended : none = tokens.head? := reads.current
          exact ⟨[], ⟨rfl, line, rfl⟩, (List.head?_eq_none_iff.mp ended.symm).symm⟩
  | cons answer answers =>
      cases answer with
      | error error => simp [Parser.ofText, TokenStream.next, stream] at started
      | ok lexeme =>
          obtain rfl : ⟨lexeme.token, lexeme.line, ⟨answers, (TokenStream.ofText text).last⟩⟩ =
              parser := by
            simpa [Parser.ofText, TokenStream.next, stream] using started
          cases tokens with
          | nil => simp [Parser.Reads] at reads
          | cons token tokens =>
              obtain ⟨current, ⟨lexemes, ahead, rfl⟩, ending⟩ := reads
              refine ⟨lexeme :: lexemes, ⟨congrArg _ ahead, ending⟩, ?_⟩
              rw [List.map_cons, Option.some.inj current]

end Scanning

/-- A parser in front of given tokens. -/
def Parser.ofTokens : List Token → Parser
  | [] => ⟨none, 1, ⟨[], .ok 1⟩⟩
  | token :: tokens => ⟨some token, 1, ⟨tokens.map fun token => .ok ⟨token, 1⟩, .ok 1⟩⟩

theorem Parser.reads_ofTokens (tokens : List Token) : (Parser.ofTokens tokens).Reads tokens := by
  cases tokens with
  | nil => rfl
  | cons token tokens =>
      refine ⟨rfl, ⟨tokens.map (⟨·, 1⟩), ?_, ?_⟩, 1, rfl⟩
      · simp [Parser.ofTokens]
      · simp [Function.comp_def]

theorem parse_eq_ok {text : String} {program : Program} : parse text = .ok program ↔
    ∃ parser, Parser.ofText text = .ok parser ∧ ∃ rest, parser.program.Gives program rest := by
  unfold parse
  cases Parser.ofText text with
  | error error => simp [bind, Except.bind]
  | ok parser => simp [bind, Except.bind, Parser.Parsed.toExcept_eq_ok]

/-- A text parses to a tree exactly if its tokens derive that tree. -/
theorem parse_eq_ok_iff {text : String} {program : Program} : parse text = .ok program ↔
    ∃ lexemes, scan text = .ok lexemes ∧ Grammar.Program (lexemes.map (·.token)) program := by
  rw [parse_eq_ok]
  constructor
  · rintro ⟨parser, started, rest, gives⟩
    obtain ⟨tokens, reads, derived⟩ := Parser.derives_program gives
    obtain ⟨lexemes, scanned, rfl⟩ := scan_of_reads started reads
    exact ⟨lexemes, scanned, derived⟩
  · rintro ⟨lexemes, scanned, derived⟩
    obtain ⟨parser, started, reads⟩ := reads_of_scan scanned
    obtain ⟨rest, gives, -⟩ := Parser.yields_program derived reads
    exact ⟨parser, started, rest, gives⟩

/-- Tokens derive at most one tree: a parser in front of them finds each of their derivations. -/
theorem Grammar.Program.unique {tokens : List Token} {program program' : MiniPascal.Program}
    (derived : Grammar.Program tokens program) (derived' : Grammar.Program tokens program') :
    program = program' := by
  obtain ⟨_, gives, -⟩ := Parser.yields_program derived (Parser.reads_ofTokens tokens)
  obtain ⟨_, gives', -⟩ := Parser.yields_program derived' (Parser.reads_ofTokens tokens)
  exact gives.unique gives'

/-- Parsing accepts exactly the texts whose tokens derive a program, with the tree that they
derive, which is the only one. -/
theorem parse_iff_derives :
    (∀ (text : String) (program : Program), parse text = .ok program ↔
      ∃ lexemes, scan text = .ok lexemes ∧
        Grammar.Program (lexemes.map (·.token)) program) ∧
    ∀ (tokens : List Token) (program program' : Program),
      Grammar.Program tokens program → Grammar.Program tokens program' → program = program' :=
  ⟨fun _ _ => parse_eq_ok_iff, fun _ _ _ derived derived' => derived.unique derived'⟩

/-- A program with a procedure, whose body has one `ELSE` behind two choices. -/
def nestedChoice : Program where
  globals := ["a"]
  procedures := [
    { name := "f", params := ["x"], locals := [],
      body := .assign "f" (.binary .mod (.binary .sub (.num 0) (.var "x")) (.num 2)) }]
  body :=
    .ifThen ⟨.lt, .var "a", .num 1⟩
      (.ifElse ⟨.ne, .var "a", .num 2⟩
        (.write (.binary .sub (.binary .sub (.var "a") (.num 1)) (.call "f" [.var "a"])))
        (.read "a"))

/-- The tokens of `nestedChoice`. -/
def nestedChoiceTokens : List Token :=
  [.kwVar, .ident "a", .semicolon,
    .kwProcedure, .ident "f", .leftParen, .ident "x", .rightParen, .semicolon,
    .ident "f", .assign, .minus, .ident "x", .kwMod, .number 2, .semicolon,
    .kwIf, .ident "a", .relation .lt, .number 1, .kwThen,
    .kwIf, .ident "a", .relation .ne, .number 2, .kwThen,
    .kwWriteln, .leftParen, .ident "a", .minus, .number 1, .minus, .ident "f", .leftParen,
    .ident "a", .rightParen, .rightParen, .semicolon,
    .kwElse, .kwReadln, .leftParen, .ident "a", .rightParen, .semicolon]

open Grammar in
theorem derives_nestedChoice : Grammar.Program nestedChoiceTokens nestedChoice := by
  have derivesVar (name : String) {rest : List Token} (notCall : rest.head? ≠ some .leftParen) :
      Expression (.ident name :: rest) (.var name) rest :=
    .term (.factor (.variable name notCall))
  have derivesNum (value : Int32) {rest : List Token} :
      Expression (.number value :: rest) (.num value) rest :=
    .term (.factor (.number value))
  have derivesBody {rest : List Token} : Statement
      (.ident "f" :: .assign :: .minus :: .ident "x" :: .kwMod :: .number 2 :: .semicolon :: rest)
      (.assign "f" (.binary .mod (.binary .sub (.num 0) (.var "x")) (.num 2))) rest :=
    .assign "f"
      (.term (.product (.factor (.negation (.variable "x" (by simp)))) .kwMod (.number 2)))
  refine .whole (.some (.one "a") .none)
    (.some (.declare "f" (.some (.one "x")) .none derivesBody) .none) ?_
  refine .ifThen (.compare (derivesVar "a" (by decide)) (derivesNum 1)) ?_ (by decide)
  refine .ifElse (.compare (derivesVar "a" (by decide)) (derivesNum 2)) ?_ (.read "a")
  refine .write
    (.sum (.sum (derivesVar "a" (by decide)) .minus (.factor (.number 1))) .minus ?_)
  exact .factor (.call "f" (.some (derivesVar "a" (by decide)) .none))

/-- The text of `nestedChoice`. -/
def nestedChoiceText : String :=
  "VAR a; PROCEDURE f(x); f := -x mod 2;
    IF a < 1 THEN IF a <> 2 THEN WRITELN(a - 1 - f(a)); ELSE READLN(a);"

theorem scan_nestedChoiceText : ∃ lexemes, scan nestedChoiceText = .ok lexemes ∧
    lexemes.map (·.token) = nestedChoiceTokens := by
  have found : (scan nestedChoiceText).map (·.map (·.token)) = .ok nestedChoiceTokens := by
    decide +kernel
  cases scanned : scan nestedChoiceText with
  | error cause =>
      rw [scanned] at found
      cases found
  | ok lexemes =>
      rw [scanned] at found
      exact ⟨lexemes, rfl, Except.ok.inj found⟩

theorem parse_iff_derives_nestedChoice :
    parse nestedChoiceText = .ok nestedChoice ∧
    Grammar.Program nestedChoiceTokens nestedChoice ∧
    ∀ program, Grammar.Program nestedChoiceTokens program → program = nestedChoice := by
  obtain ⟨lexemes, scanned, same⟩ := scan_nestedChoiceText
  refine ⟨(parse_iff_derives.1 _ _).mpr ⟨lexemes, scanned, ?_⟩, derives_nestedChoice, ?_⟩
  · rw [same]
    exact derives_nestedChoice
  · intro program derived
    exact parse_iff_derives.2 _ _ _ derived derives_nestedChoice

end MiniPascal
