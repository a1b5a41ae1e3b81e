import MiniPascal.Parser.Program
import MiniPascal.Proofs.Parser.Grammar

/-!
# Steps of the parser

`Parsed.Gives` says that a step succeeds, with its value and the parser that it leaves, and
`Parser.Takes` that a parser has a token in front and leaves another parser when it takes it. One
lemma for each way of building a step from others says what it takes to succeed, so that opening a
function of the parser and simplifying tells what the function takes.
-/

namespace MiniPascal.Parser

namespace Parsed

variable {α β : Type} {bound bound' : Nat}

/-- The step succeeds with `value` and leaves the parser `rest`. -/
def Gives (step : Parsed α bound) (value : α) (rest : Parser) : Prop :=
  ∃ below, step = .ok value rest below

theorem Gives.size_lt {step : Parsed α bound} {value : α} {rest : Parser}
    (gives : step.Gives value rest) : rest.size < bound :=
  gives.1

theorem Gives.unique {step : Parsed α bound} {value value' : α} {rest rest' : Parser}
    (gives : step.Gives value rest) (gives' : step.Gives value' rest') : value = value' := by
  obtain ⟨below, rfl⟩ := gives
  obtain ⟨below', equal⟩ := gives'
  cases equal
  rfl

theorem toExcept_eq_ok {step : Parsed α bound} {value : α} :
    step.toExcept = .ok value ↔ ∃ rest, step.Gives value rest := by
  cases step with
  | ok value' rest below => simp [toExcept, Gives, below]
  | error cause rest => simp [toExcept, Gives]

@[simp] theorem gives_ok {value value' : α} {rest rest' : Parser} {below : rest.size < bound} :
    (ok value rest below).Gives value' rest' ↔ value = value' ∧ rest = rest' := by
  constructor
  · rintro ⟨below', equal⟩
    cases equal
    exact ⟨rfl, rfl⟩
  · rintro ⟨rfl, rfl⟩
    exact ⟨below, rfl⟩

@[simp] theorem not_gives_error {cause : Error} {value : α} {rest rest' : Parser} :
    ¬(error cause rest : Parsed α bound).Gives value rest' := by
  simp [Gives]

@[simp] theorem gives_bind {step : Parsed α bound}
    {continuation : (value : α) → (rest : Parser) → rest.size < bound → Parsed β bound'}
    {value : β} {rest : Parser} :
    (step.bind continuation).Gives value rest ↔
      ∃ first middle, ∃ gives : step.Gives first middle,
        (continuation first middle gives.size_lt).Gives value rest := by
  cases step with
  | ok first middle below =>
      constructor
      · intro gives
        exact ⟨first, middle, ⟨below, rfl⟩, gives⟩
      · rintro ⟨first', middle', ⟨below', equal⟩, gives⟩
        cases equal
        exact gives
  | error cause middle => simp [bind]

@[simp] theorem gives_weaken {step : Parsed α bound} {le : bound ≤ bound'} {value : α}
    {rest : Parser} : (step.weaken le).Gives value rest ↔ step.Gives value rest := by
  simp [weaken]

@[simp] theorem gives_map {step : Parsed α bound} {change : α → β} {value : β} {rest : Parser} :
    (step.map change).Gives value rest ↔ ∃ first, step.Gives first rest ∧ change first = value := by
  simp only [map, gives_bind, gives_ok, exists_prop]
  constructor
  · rintro ⟨first, middle, gives, equal, rfl⟩
    exact ⟨first, gives, equal⟩
  · rintro ⟨first, gives, equal⟩
    exact ⟨first, rest, gives, equal, rfl⟩

end Parsed

section Tokens

variable {α : Type} {parser rest : Parser} {token : Token} {tokens : List Token}
  {select : Token → Option α}

/-- The parser has `token` in front and leaves the parser `rest` when it takes it. -/
inductive Takes (parser : Parser) (token : Token) : Parser → Prop where
  | token (lexeme : Lexeme) (ahead : List (Except Error Lexeme)) :
      parser.current = some token → parser.stream.ahead = .ok lexeme :: ahead →
      Takes parser token ⟨some lexeme.token, lexeme.line, ⟨ahead, parser.stream.last⟩⟩
  | last (line : Nat) :
      parser.current = some token → parser.stream.ahead = [] → parser.stream.last = .ok line →
      Takes parser token ⟨none, line, parser.stream⟩

/-- The tokens that are left to the parser are `tokens`, and the text ends behind them. -/
def Reads (parser : Parser) : List Token → Prop
  | [] => parser.current = none
  | token :: tokens =>
      parser.current = some token ∧
      (∃ lexemes : List Lexeme,
        parser.stream.ahead = lexemes.map .ok ∧ lexemes.map (·.token) = tokens) ∧
      ∃ line, parser.stream.last = .ok line

theorem Takes.current (takes : parser.Takes token rest) : parser.current = some token := by
  cases takes with
  | token _ _ current _ => exact current
  | last _ current _ _ => exact current

theorem Takes.size_lt (takes : parser.Takes token rest) : rest.size < parser.size := by
  cases takes with
  | token _ _ current stream => simp [size, current, stream]
  | last _ current stream _ => simp [size, current, stream]

theorem Takes.reads (takes : parser.Takes token rest) (reads : rest.Reads tokens) :
    parser.Reads (token :: tokens) := by
  cases takes with
  | token lexeme ahead current stream =>
      cases tokens with
      | nil => simp [Reads] at reads
      | cons next tokens =>
          obtain ⟨next_eq, ⟨lexemes, ahead_eq, tokens_eq⟩, ending⟩ := reads
          refine ⟨current, ⟨lexeme :: lexemes, ?_, ?_⟩, ending⟩
          · exact stream.trans (congrArg _ ahead_eq)
          · rw [List.map_cons, tokens_eq, Option.some.inj next_eq]
  | last line current stream ending =>
      cases tokens with
      | nil => exact ⟨current, ⟨[], stream, rfl⟩, line, ending⟩
      | cons next tokens => simp [Reads] at reads

theorem Reads.takes (reads : parser.Reads (token :: tokens)) :
    ∃ rest, parser.Takes token rest ∧ rest.Reads tokens := by
  obtain ⟨current, ⟨lexemes, ahead, rfl⟩, line, ending⟩ := reads
  cases lexemes with
  | nil => exact ⟨_, .last line current ahead ending, rfl⟩
  | cons lexeme lexemes =>
      exact ⟨_, .token lexeme _ current ahead, rfl, ⟨lexemes, rfl, rfl⟩, line, ending⟩

theorem Reads.current (reads : parser.Reads tokens) : parser.current = tokens.head? := by
  cases tokens with
  | nil => exact reads
  | cons token tokens => exact reads.1

theorem accept?_eq_none : parser.accept? select = none ↔ parser.current.bind select = none := by
  unfold accept?
  split
  next current => simp [current]
  next current => simp [current]

/-- The parser has a token in front that has `value` under `select`, and leaves the parser `rest`
when it takes it. -/
def Accepts (parser : Parser) (select : Token → Option α) (value : α) (rest : Parser) : Prop :=
  ∃ token, select token = some value ∧ parser.Takes token rest

theorem not_accepts_of_accept? (refused : parser.accept? select = none) {value : α} :
    ¬parser.Accepts select value rest := by
  rintro ⟨token, selected, takes⟩
  have none_eq := accept?_eq_none.mp refused
  simp [takes.current, selected] at none_eq

/-- Accepting succeeds by taking the token in front. -/
theorem gives_of_accept? {step : Parsed α parser.size}
    (accepted : parser.accept? select = some step) {value : α} :
    step.Gives value rest ↔ parser.Accepts select value rest := by
  unfold accept? at accepted
  split at accepted
  next => cases accepted
  next token current =>
    obtain ⟨value', selected, rfl⟩ := Option.map_eq_some_iff.mp accepted
    have accepts : parser.Accepts select value rest ↔
        value' = value ∧ parser.Takes token rest := by
      constructor
      · rintro ⟨token', selected', takes⟩
        obtain rfl : token = token' := Option.some.inj (current.symm.trans takes.current)
        exact ⟨Option.some.inj (selected.symm.trans selected'), takes⟩
      · rintro ⟨rfl, takes⟩
        exact ⟨token, selected, takes⟩
    rw [accepts]
    constructor
    · intro gives
      split at gives
      next lexeme ahead stream =>
        obtain ⟨rfl, rfl⟩ := Parsed.gives_ok.mp gives
        exact ⟨rfl, .token lexeme ahead current stream⟩
      next => exact absurd gives Parsed.not_gives_error
      next stream =>
        split at gives
        next line ending =>
          obtain ⟨rfl, rfl⟩ := Parsed.gives_ok.mp gives
          exact ⟨rfl, .last line current stream ending⟩
        next => exact absurd gives Parsed.not_gives_error
    · rintro ⟨rfl, takes⟩
      cases takes with
      | token lexeme ahead _ stream => grind [Parsed.gives_ok]
      | last line _ stream ending => grind [Parsed.gives_ok]

@[simp] theorem not_gives_unexpected {bound : Nat} {expected : String} {value : α} :
    ¬(parser.unexpected expected : Parsed α bound).Gives value rest := by
  simp [unexpected]

@[simp] theorem gives_require {expected : String} {value : α} :
    (parser.require expected select).Gives value rest ↔ parser.Accepts select value rest := by
  unfold require
  cases accepted : parser.accept? select with
  | some step => exact gives_of_accept? accepted
  | none => simp [not_accepts_of_accept? accepted]

theorem name?_eq_some {value : String} : token.name? = some value ↔ token = .ident value := by
  cases token <;> simp [Token.name?]

theorem additive?_eq_some {operator : Operator} :
    token.additive? = some operator ↔ Grammar.Additive token operator := by
  constructor
  · intro selected
    cases token with
    | plus => cases selected; exact .plus
    | minus => cases selected; exact .minus
    | _ => cases selected
  · intro additive
    cases additive <;> rfl

theorem multiplicative?_eq_some {operator : Operator} :
    token.multiplicative? = some operator ↔ Grammar.Multiplicative token operator := by
  constructor
  · intro selected
    cases token with
    | times => cases selected; exact .times
    | divide => cases selected; exact .divide
    | kwMod => cases selected; exact .kwMod
    | _ => cases selected
  · intro multiplicative
    cases multiplicative <;> rfl

theorem comparison?_eq_some {relation : Comparison} :
    token.comparison? = some relation ↔ token = .relation relation := by
  cases token <;> simp [Token.comparison?]

@[simp] theorem accepts_name {value : String} :
    parser.Accepts Token.name? value rest ↔ parser.Takes (.ident value) rest := by
  simp [Accepts, name?_eq_some]

@[simp] theorem accepts_comparison {relation : Comparison} :
    parser.Accepts Token.comparison? relation rest ↔ parser.Takes (.relation relation) rest := by
  simp [Accepts, comparison?_eq_some]

@[simp] theorem gives_name {value : String} :
    parser.name.Gives value rest ↔ parser.Takes (.ident value) rest := by
  simp [name]

theorem acceptToken?_eq_none :
    parser.acceptToken? token = none ↔ parser.current ≠ some token := by
  cases current : parser.current <;> simp [acceptToken?, accept?_eq_none, current]

theorem gives_of_acceptToken? {step : Parsed Unit parser.size}
    (accepted : parser.acceptToken? token = some step) {value : Unit} :
    step.Gives value rest ↔ parser.Takes token rest := by
  simp [gives_of_accept? accepted, Accepts]

theorem not_takes_of_acceptToken? (refused : parser.acceptToken? token = none) :
    ¬parser.Takes token rest := fun takes => acceptToken?_eq_none.mp refused takes.current

theorem Takes.acceptToken? (takes : parser.Takes token rest) :
    ∃ step, parser.acceptToken? token = some step ∧ step.Gives () rest := by
  cases accepted : parser.acceptToken? token with
  | none => exact absurd takes (not_takes_of_acceptToken? accepted)
  | some step => exact ⟨step, rfl, (gives_of_acceptToken? accepted).mpr takes⟩

@[simp] theorem gives_expect {value : Unit} :
    (parser.expect token).Gives value rest ↔ parser.Takes token rest := by
  unfold expect
  cases accepted : parser.acceptToken? token with
  | some step => exact gives_of_acceptToken? accepted
  | none => simp [not_takes_of_acceptToken? accepted]

end Tokens

section Expressions

variable {parser rest : Parser} {left value : Expr}

theorem gives_expression : (expression parser).Gives value rest ↔
    ∃ left middle, (term parser).Gives left middle ∧ (sum left middle).Gives value rest := by
  rw [expression]
  simp

theorem gives_sum : (sum left parser).Gives value rest ↔
    (parser.accept? Token.additive? = none ∧ left = value ∧ parser = rest) ∨
    ∃ operator middle, parser.Accepts Token.additive? operator middle ∧
      ∃ right middle', (term middle).Gives right middle' ∧
        (sum (.binary operator left right) middle').Gives value rest := by
  rw [sum]
  cases accepted : parser.accept? Token.additive? with
  | none => simp [not_accepts_of_accept? accepted]
  | some step => simp [gives_of_accept? accepted]

theorem gives_term : (term parser).Gives value rest ↔
    ∃ left middle, (factor parser).Gives left middle ∧ (product left middle).Gives value rest := by
  rw [term]
  simp

theorem gives_product : (product left parser).Gives value rest ↔
    (parser.accept? Token.multiplicative? = none ∧ left = value ∧ parser = rest) ∨
    ∃ operator middle, parser.Accepts Token.multiplicative? operator middle ∧
      ∃ right middle', (factor middle).Gives right middle' ∧
        (product (.binary operator left right) middle').Gives value rest := by
  rw [product]
  cases accepted : parser.accept? Token.multiplicative? with
  | none => simp [not_accepts_of_accept? accepted]
  | some step => simp [gives_of_accept? accepted]

end Expressions

end MiniPascal.Parser
