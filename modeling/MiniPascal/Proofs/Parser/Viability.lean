import MiniPascal.Proofs.Parser.Phrases

/-!
# What a parser has read when it ends

Every function of the parser is explained by the phrase of its rule: what it has taken when it
succeeds is such a phrase, and what it has taken when it fails can be completed to one. The proofs
follow the recursion of the parser. Each of them says in phrases what the function does, and then
that these phrases make up the rule. The functions that go on from something read before, such as
`sum`, have phrases that say how they prolong it.
-/

namespace MiniPascal.Parser

namespace Phrase

abbrev expression : Phrase Expr :=
  .rule Grammar.Expression Parser.expression [.number 0] (.num 0)
    fun _ _ => .term (.factor (.number 0))

/-- What may follow the left operand of a sum. It prolongs an expression. -/
abbrev sum (left : Expr) : Phrase Expr :=
  .rule (fun tokens value after => ∀ before, Grammar.Expression before left tokens →
    Grammar.Expression before value after) (Parser.sum left) [] left fun _ _ _ derived => derived

abbrev term : Phrase Expr :=
  .rule Grammar.Term Parser.term [.number 0] (.num 0) fun _ _ => .factor (.number 0)

/-- What may follow the left operand of a product. It prolongs a term. -/
abbrev product (left : Expr) : Phrase Expr :=
  .rule (fun tokens value after => ∀ before, Grammar.Term before left tokens →
    Grammar.Term before value after) (Parser.product left) [] left fun _ _ _ derived => derived

abbrev factor : Phrase Expr :=
  .rule Grammar.Factor Parser.factor [.number 0] (.num 0) fun _ _ => .number 0

abbrev arguments : Phrase (List Expr) :=
  .rule Grammar.Arguments Parser.arguments [.rightParen] [] fun _ _ => .none

abbrev moreArguments : Phrase (List Expr) :=
  .rule Grammar.MoreArguments Parser.moreArguments [.rightParen] [] fun _ _ => .none

abbrev condition : Phrase Condition :=
  .rule Grammar.Condition Parser.condition [.number 0, .relation .eq, .number 0]
    ⟨.eq, .num 0, .num 0⟩
    fun _ _ => .compare (.term (.factor (.number 0))) (.term (.factor (.number 0)))

abbrev statement : Phrase Stmt :=
  .rule Grammar.Statement Parser.statement [.kwBegin, .kwEnd, .semicolon] (.block [])
    fun _ _ => .block .none

abbrev statements : Phrase (List Stmt) :=
  .rule Grammar.Statements Parser.statements [] [] fun _ _ => .none

/-- What may follow a name in a list of names. It prolongs the list. -/
abbrev moreNames : Phrase (List String) :=
  .rule (fun tokens others after => ∀ name, Grammar.Names (.ident name :: tokens) (name :: others)
    after) Parser.moreNames [] [] fun _ _ => .one

abbrev names : Phrase (List String) :=
  .rule Grammar.Names Parser.names [.ident "x"] ["x"] fun _ _ => .one "x"

abbrev declarations : Phrase (List String) :=
  .rule Grammar.Declarations Parser.declarations [] [] fun _ _ => .none

abbrev parameters : Phrase (List String) :=
  .rule Grammar.Parameters Parser.parameters [.rightParen] [] fun _ _ => .none

abbrev procedure : Phrase Procedure :=
  .rule Grammar.Procedure Parser.procedure
    [.kwProcedure, .ident "x", .leftParen, .rightParen, .semicolon, .kwBegin, .kwEnd, .semicolon]
    ⟨"x", [], [], .block []⟩
    fun _ _ => .declare "x" .none .none (.block .none)

abbrev procedures : Phrase (List Procedure) :=
  .rule Grammar.Procedures Parser.procedures [] [] fun _ _ => .none

/-- A program, if nothing is behind it. -/
abbrev program : Phrase Program :=
  .rule (fun tokens tree after => after = [] → Grammar.Program tokens tree) Parser.program
    [.kwBegin, .kwEnd, .semicolon] ⟨[], [], .block []⟩
    fun _ _ ended => .whole .none .none (by rw [ended]; exact .block .none)

end Phrase

/-! ### Expressions -/

mutual

theorem explains_expression (parser : Parser) :
    Explains .expression parser (expression parser) := by
  rw [expression]
  refine .rule (.seq .term .sum) ?_ ?_ ?_
  · exact .bind (explains_term parser) fun left rest _ => (explains_sum left rest).weaken _
  · rintro tokens value after ⟨left, middle, derived, prolong⟩
    exact prolong tokens (.term derived)
  · intro twin value rest _
    exact gives_expression
termination_by 3 * parser.size + 2

theorem explains_sum (left : Expr) (parser : Parser) :
    Explains (.sum left) parser (sum left parser) := by
  rw [sum]
  refine .rule (.choose (·.bind Token.additive? = none) (.done left)
    (.take Token.additive? .plus rfl fun operator =>
      .seq .term fun right => .sum (.binary operator left right))) ?_ ?_ ?_
  · split
    next refused => exact explains_done.inl (accept?_eq_none.mp refused)
    next step accepted =>
      exact .inr (explains_accepted accepted fun operator rest _ =>
        .bind (explains_term rest) fun right rest _ => (explains_sum _ rest).weaken _)
        (bind_ne_none_of_accept? accepted)
  · rintro tokens value after (⟨rfl, rfl⟩ |
      ⟨token, operator, additive, rest, rfl, right, middle, derived, prolong⟩) before derivedLeft
    · exact derivedLeft
    · exact prolong before (.sum derivedLeft (additive?_eq_some.mp additive) derived)
  · intro twin value rest _
    exact (Phrase.gives_choose_take.trans gives_sum.symm).symm
termination_by 3 * parser.size + 2

theorem explains_term (parser : Parser) : Explains .term parser (term parser) := by
  rw [term]
  refine .rule (.seq .factor .product) ?_ ?_ ?_
  · exact .bind (explains_factor parser) fun left rest _ => (explains_product left rest).weaken _
  · rintro tokens value after ⟨left, middle, derived, prolong⟩
    exact prolong tokens (.factor derived)
  · intro twin value rest _
    exact gives_term
termination_by 3 * parser.size + 1

theorem explains_product (left : Expr) (parser : Parser) :
    Explains (.product left) parser (product left parser) := by
  rw [product]
  refine .rule (.choose (·.bind Token.multiplicative? = none) (.done left)
    (.take Token.multiplicative? .times rfl fun operator =>
      .seq .factor fun right => .product (.binary operator left right))) ?_ ?_ ?_
  · split
    next refused => exact explains_done.inl (accept?_eq_none.mp refused)
    next step accepted =>
      exact .inr (explains_accepted accepted fun operator rest _ =>
        .bind (explains_factor rest) fun right rest _ => (explains_product _ rest).weaken _)
        (bind_ne_none_of_accept? accepted)
  · rintro tokens value after (⟨rfl, rfl⟩ |
      ⟨token, operator, multiplicative, rest, rfl, right, middle, derived, prolong⟩) before
      derivedLeft
    · exact derivedLeft
    · exact prolong before
        (.product derivedLeft (multiplicative?_eq_some.mp multiplicative) derived)
  · intro twin value rest _
    exact (Phrase.gives_choose_take.trans gives_product.symm).symm
termination_by 3 * parser.size + 1

theorem explains_factor (parser : Parser) : Explains .factor parser (factor parser) := by
  rw [factor]
  split
  next current =>
    refine .rule (.expect .leftParen <| .seq .expression fun inner =>
      .expect .rightParen <| .done inner) ?_ ?_ ?_
    · exact explains_expect fun rest _ => .bind (explains_expression rest) fun inner rest _ =>
        explains_last.weaken _
    · rintro _ _ after ⟨tokens, rfl, inner, _, derived, _, rfl, rfl, rfl⟩
      exact .parentheses derived
    · intro twin value rest same
      rw [factor, same, current]
      simp only [Parsed.gives_bind, Parsed.gives_weaken, Parsed.gives_map, exists_prop]
      simp
  next current =>
    refine .rule (.expect .minus <| .seq .factor fun inner => .done inner.negation) ?_ ?_ ?_
    · exact explains_expect fun rest _ => ((explains_factor rest).map _).weaken _
    · rintro _ _ after ⟨tokens, rfl, inner, _, derived, rfl, rfl⟩
      exact .negation derived
    · intro twin value rest same
      rw [factor, same, current]
      simp only [Parsed.gives_bind, Parsed.gives_weaken, Parsed.gives_map, exists_prop]
      simp
  next number current =>
    refine .rule (.expect (.number number) <| .done (.num number)) explains_last ?_ ?_
    · rintro _ _ after ⟨tokens, rfl, rfl, rfl⟩
      exact .number number
    · intro twin value rest same
      rw [factor, same, current]
      simp
  next name current =>
    refine .rule (.expect (.ident name) <| .choose (· ≠ some .leftParen)
      (.stop .leftParen not_clear_leftParen (.var name))
      (.expect .leftParen <| .seq .arguments fun args => .done (.call name args))) ?_ ?_ ?_
    · apply explains_expect
      intro rest _
      split
      next refused =>
        have other := acceptToken?_eq_none.mp refused
        exact (explains_stop other).inl other
      next step accepted =>
        exact .inr (explains_acceptToken accepted fun rest _ =>
          ((explains_arguments rest).map _).weaken _) (absurd (current_of_acceptToken? accepted))
    · rintro _ _ after ⟨tokens, rfl, ⟨notCall, rfl, rfl⟩ |
        ⟨tokens, rfl, args, _, derived, rfl, rfl⟩⟩
      · exact .variable name notCall
      · exact .call name derived
    · intro twin value rest same
      rw [factor, same, current]
      simp only [Parsed.gives_bind, gives_expect]
      constructor
      · rintro ⟨_, middle, takes, gives⟩
        exact ⟨middle, takes, by simpa using gives_acceptToken?.mp gives⟩
      · rintro ⟨middle, takes, gives⟩
        exact ⟨(), middle, takes, gives_acceptToken?.mpr (by simpa using gives)⟩
  next =>
    apply explains_unexpected
    intro twin value rest same
    change ¬(factor twin).Gives value rest
    rw [factor, same]
    split <;> simp_all
termination_by 3 * parser.size

theorem explains_arguments (parser : Parser) :
    Explains .arguments parser (arguments parser) := by
  rw [arguments]
  refine .rule (.choose (· = some .rightParen) (.expect .rightParen <| .done [])
    (.seq .expression fun first => .seq .moreArguments fun others => .done (first :: others)))
    ?_ ?_ ?_
  · split
    next step accepted =>
      exact .inl (explains_acceptToken accepted fun _ _ => explains_done)
        (current_of_acceptToken? accepted)
    next refused =>
      exact .inr (.bind (explains_expression parser) fun first rest _ =>
        ((explains_moreArguments rest).map _).weaken _) (acceptToken?_eq_none.mp refused)
  · rintro _ _ after (⟨_, rfl, rfl, rfl⟩ |
      ⟨first, middle, derived, others, _, derivedOthers, rfl, rfl⟩)
    · exact .none
    · exact .some derived derivedOthers
  · intro twin value rest _
    rw [arguments]
    cases accepted : twin.acceptToken? .rightParen with
    | some step =>
        simp [gives_of_acceptToken? accepted, current_of_acceptToken? accepted]
    | none => simp [acceptToken?_eq_none.mp accepted]
termination_by 3 * parser.size + 3

theorem explains_moreArguments (parser : Parser) :
    Explains .moreArguments parser (moreArguments parser) := by
  rw [moreArguments]
  refine .rule (.choose (· ≠ some .comma) (.expect .rightParen <| .done [])
    (.expect .comma <| .seq .expression fun first => .seq .moreArguments fun others =>
      .done (first :: others))) ?_ ?_ ?_
  · split
    next refused => exact explains_last.inl (acceptToken?_eq_none.mp refused)
    next step accepted =>
      exact .inr (explains_acceptToken accepted fun rest _ =>
        .bind (explains_expression rest) fun first rest _ =>
          ((explains_moreArguments rest).map _).weaken _)
        (absurd (current_of_acceptToken? accepted))
  · rintro _ _ after (⟨_, rfl, rfl, rfl⟩ |
      ⟨tokens, rfl, first, middle, derived, others, _, derivedOthers, rfl, rfl⟩)
    · exact .none
    · exact .some derived derivedOthers
  · intro twin value rest _
    rw [moreArguments]
    refine gives_acceptToken?.trans ?_
    simp
termination_by 3 * parser.size + 3

end

theorem explains_condition (parser : Parser) :
    Explains .condition parser (condition parser) := by
  rw [condition]
  refine .rule (.seq .expression fun left =>
    .take Token.comparison? (.relation .eq) rfl fun relation =>
      .seq .expression fun right => .done ⟨relation, left, right⟩) ?_ ?_ ?_
  · exact .bind (explains_expression parser) fun left rest _ =>
      explains_require fun relation rest _ => ((explains_expression rest).map _).weaken _
  · rintro tokens _ after ⟨left, _, derived, token, relation, compares, middle, rfl, right, _,
      derivedRight, rfl, rfl⟩
    rw [comparison?_eq_some.mp compares] at derived
    exact .compare derived derivedRight
  · intro twin value rest _
    rw [condition]
    simp only [Parsed.gives_bind, Parsed.gives_weaken, Parsed.gives_map, exists_prop]
    simp [Phrase.take]

/-! ### Statements -/

mutual

theorem explains_statement (parser : Parser) :
    Explains .statement parser (statement parser) := by
  rw [statement]
  split
  next current =>
    refine .rule (.expect .kwWriteln <| .expect .leftParen <| .seq .expression fun value =>
      .expect .rightParen <| .expect .semicolon <| .done (.write value)) ?_ ?_ ?_
    · exact explains_expect fun rest _ => explains_expect fun rest _ =>
        .bind (explains_expression rest) fun value rest _ =>
          explains_expect fun rest _ => explains_last.weaken _
    · rintro _ _ after ⟨_, rfl, tokens, rfl, value, _, derived, _, rfl, _, rfl, rfl, rfl⟩
      exact .write derived
    · intro twin value rest same
      rw [statement, same, current]
      simp only [Parsed.gives_bind, Parsed.gives_weaken, Parsed.gives_map, exists_prop]
      simp
  next current =>
    refine .rule (.expect .kwReadln <| .expect .leftParen <|
      .take Token.name? (.ident "x") rfl fun target =>
        .expect .rightParen <| .expect .semicolon <| .done (.read target)) ?_ ?_ ?_
    · exact explains_expect fun rest _ => explains_expect fun rest _ =>
        explains_require fun target rest _ =>
          explains_expect fun rest _ => explains_last.weaken _
    · rintro _ _ after ⟨_, rfl, _, rfl, token, target, named, _, rfl, _, rfl, _, rfl, rfl, rfl⟩
      rw [name?_eq_some.mp named]
      exact .read target
    · intro twin value rest same
      rw [statement, same, current]
      simp only [Parsed.gives_bind, Parsed.gives_weaken, Parsed.gives_map, exists_prop]
      simp [Phrase.take]
  next current =>
    refine .rule (.expect .kwBegin <| .seq .statements fun body =>
      .expect .kwEnd <| .expect .semicolon <| .done (.block body)) ?_ ?_ ?_
    · exact explains_expect fun rest _ => .bind (explains_statements rest) fun body rest _ =>
        explains_expect fun rest _ => explains_last.weaken _
    · rintro _ _ after ⟨tokens, rfl, body, _, derived, _, rfl, _, rfl, rfl, rfl⟩
      exact .block derived
    · intro twin value rest same
      rw [statement, same, current]
      simp only [Parsed.gives_bind, Parsed.gives_weaken, Parsed.gives_map, exists_prop]
      simp
  next current =>
    refine .rule (.expect .kwIf <| .seq .condition fun test => .expect .kwThen <|
      .seq .statement fun thenBranch => .choose (· ≠ some .kwElse)
        (.stop .kwElse not_clear_kwElse (.ifThen test thenBranch))
        (.expect .kwElse <| .seq .statement fun elseBranch =>
          .done (.ifElse test thenBranch elseBranch))) ?_ ?_ ?_
    · refine explains_expect fun rest _ => .bind (explains_condition rest) fun test rest _ =>
        explains_expect fun rest _ => .bind (explains_statement rest) fun thenBranch rest _ => ?_
      split
      next refused =>
        have other := acceptToken?_eq_none.mp refused
        exact (explains_stop other).inl other
      next step accepted =>
        exact .inr (explains_acceptToken accepted fun rest _ =>
          ((explains_statement rest).map _).weaken _) (absurd (current_of_acceptToken? accepted))
    · rintro _ _ after ⟨tokens, rfl, test, _, derivedTest, middle, rfl, thenBranch, _, derivedThen,
        ⟨notElse, rfl, rfl⟩ | ⟨middle', rfl, elseBranch, _, derivedElse, rfl, rfl⟩⟩
      · exact .ifThen derivedTest derivedThen notElse
      · exact .ifElse derivedTest derivedThen derivedElse
    · intro twin value rest same
      rw [statement, same, current]
      simp only [Parsed.gives_bind, gives_expect]
      constructor
      · rintro ⟨_, _, takesIf, test, _, givesTest, _, _, takesThen, thenBranch, _, givesThen, gives⟩
        exact ⟨_, takesIf, test, _, givesTest, _, takesThen, thenBranch, _, givesThen,
          by simpa using gives_acceptToken?.mp gives⟩
      · rintro ⟨_, takesIf, test, _, givesTest, _, takesThen, thenBranch, _, givesThen, gives⟩
        exact ⟨(), _, takesIf, test, _, givesTest, (), _, takesThen, thenBranch, _, givesThen,
          gives_acceptToken?.mpr (by simpa using gives)⟩
  next current =>
    refine .rule (.expect .kwWhile <| .seq .condition fun test => .expect .kwDo <|
      .seq .statement fun body => .done (.loop test body)) ?_ ?_ ?_
    · exact explains_expect fun rest _ => .bind (explains_condition rest) fun test rest _ =>
        explains_expect fun rest _ => ((explains_statement rest).map _).weaken _
    · rintro _ _ after ⟨tokens, rfl, test, _, derivedTest, middle, rfl, body, _, derivedBody, rfl,
        rfl⟩
      exact .loop derivedTest derivedBody
    · intro twin value rest same
      rw [statement, same, current]
      simp only [Parsed.gives_bind, Parsed.gives_weaken, Parsed.gives_map, exists_prop]
      simp
  next target current =>
    refine .rule (.expect (.ident target) <| .expect .assign <| .seq .expression fun value =>
      .expect .semicolon <| .done (.assign target value)) ?_ ?_ ?_
    · exact explains_expect fun rest _ => explains_expect fun rest _ =>
        .bind (explains_expression rest) fun value rest _ => explains_last.weaken _
    · rintro _ _ after ⟨_, rfl, tokens, rfl, value, _, derived, _, rfl, rfl, rfl⟩
      exact .assign target derived
    · intro twin value rest same
      rw [statement, same, current]
      simp only [Parsed.gives_bind, Parsed.gives_weaken, Parsed.gives_map, exists_prop]
      simp
  next =>
    apply explains_unexpected
    intro twin value rest same
    change ¬(statement twin).Gives value rest
    rw [statement, same]
    split <;> simp_all
termination_by 2 * parser.size

theorem explains_statements (parser : Parser) :
    Explains .statements parser (statements parser) := by
  rw [statements]
  refine .rule (.choose (· = some .kwEnd) (.done []) (.seq .statement fun first =>
    .seq .statements fun others => .done (first :: others))) ?_ ?_ ?_
  · split
    next ended => exact explains_done.inl ended
    next other =>
      exact .inr (.bind (explains_statement parser) fun first rest _ =>
        ((explains_statements rest).map _).weaken _) other
  · rintro _ _ after (⟨rfl, rfl⟩ | ⟨first, _, derived, others, _, derivedOthers, rfl, rfl⟩)
    · exact .none
    · exact .some derived derivedOthers
  · intro twin value rest _
    rw [statements]
    split
    next ended => simp [ended]
    next other => simp [other]
termination_by 2 * parser.size + 1

end

/-! ### Programs -/

theorem explains_moreNames (parser : Parser) :
    Explains .moreNames parser (moreNames parser) := by
  rw [moreNames]
  refine .rule (.choose (· ≠ some .comma) (.done []) (.expect .comma <|
    .take Token.name? (.ident "x") rfl fun next => .seq .moreNames fun others =>
      .done (next :: others))) ?_ ?_ ?_
  · split
    next refused => exact explains_done.inl (acceptToken?_eq_none.mp refused)
    next step accepted =>
      exact .inr (explains_acceptToken accepted fun rest _ =>
        explains_require fun next rest _ => ((explains_moreNames rest).map _).weaken _)
        (absurd (current_of_acceptToken? accepted))
  · rintro _ _ after (⟨rfl, rfl⟩ |
      ⟨_, rfl, token, next, named, tokens, rfl, others, _, derived, rfl, rfl⟩) name
    · exact .one name
    · rw [name?_eq_some.mp named]
      exact .more name (derived next)
  · intro twin value rest _
    rw [moreNames]
    refine gives_acceptToken?.trans ?_
    simp [Phrase.take]
termination_by parser.size

theorem explains_names (parser : Parser) : Explains .names parser (names parser) := by
  rw [names]
  refine .rule (.take Token.name? (.ident "x") rfl fun first => .seq .moreNames fun others =>
    .done (first :: others)) ?_ ?_ ?_
  · exact explains_require fun first rest _ => ((explains_moreNames rest).map _).weaken _
  · rintro _ _ after ⟨token, first, named, tokens, rfl, others, _, derived, rfl, rfl⟩
    rw [name?_eq_some.mp named]
    exact derived first
  · intro twin value rest _
    rw [names]
    simp [Phrase.take]

theorem explains_declarations (parser : Parser) :
    Explains .declarations parser (declarations parser) := by
  rw [declarations]
  refine .rule (.choose (· ≠ some .kwVar) (.done []) (.expect .kwVar <|
    .seq .names fun declared => .expect .semicolon <| .seq .declarations fun others =>
      .done (declared ++ others))) ?_ ?_ ?_
  · split
    next refused => exact explains_done.inl (acceptToken?_eq_none.mp refused)
    next step accepted =>
      exact .inr (explains_acceptToken accepted fun rest _ =>
        .bind (explains_names rest) fun declared rest _ =>
          explains_expect fun rest _ => ((explains_declarations rest).map _).weaken _)
        (absurd (current_of_acceptToken? accepted))
  · rintro _ _ after (⟨rfl, rfl⟩ |
      ⟨_, rfl, declared, _, derived, middle, rfl, others, _, derivedOthers, rfl, rfl⟩)
    · exact .none
    · exact .some derived derivedOthers
  · intro twin value rest _
    rw [declarations]
    refine gives_acceptToken?.trans ?_
    simp
termination_by parser.size

theorem explains_parameters (parser : Parser) :
    Explains .parameters parser (parameters parser) := by
  rw [parameters]
  refine .rule (.choose (· = some .rightParen) (.expect .rightParen <| .done [])
    (.seq .names fun params => .expect .rightParen <| .done params)) ?_ ?_ ?_
  · split
    next step accepted =>
      exact .inl (explains_acceptToken accepted fun _ _ => explains_done)
        (current_of_acceptToken? accepted)
    next refused =>
      exact .inr (.bind (explains_names parser) fun params rest _ => explains_last.weaken _)
        (acceptToken?_eq_none.mp refused)
  · rintro _ _ after (⟨_, rfl, rfl, rfl⟩ | ⟨params, _, derived, _, rfl, rfl, rfl⟩)
    · exact .none
    · exact .some derived
  · intro twin value rest _
    rw [parameters]
    cases accepted : twin.acceptToken? .rightParen with
    | some step =>
        simp [gives_of_acceptToken? accepted, current_of_acceptToken? accepted]
    | none =>
        simp only [Parsed.gives_bind, Parsed.gives_weaken, Parsed.gives_map, exists_prop]
        simp [acceptToken?_eq_none.mp accepted]

theorem explains_procedure (parser : Parser) :
    Explains .procedure parser (procedure parser) := by
  rw [procedure]
  refine .rule (.expect .kwProcedure <| .take Token.name? (.ident "x") rfl fun name =>
    .expect .leftParen <| .seq .parameters fun params => .expect .semicolon <|
      .seq .declarations fun locals => .seq .statement fun body =>
        .done ⟨name, params, locals, body⟩) ?_ ?_ ?_
  · exact explains_expect fun rest _ => explains_require fun name rest _ =>
      explains_expect fun rest _ => .bind (explains_parameters rest) fun params rest _ =>
        explains_expect fun rest _ => .bind (explains_declarations rest) fun locals rest _ =>
          ((explains_statement rest).map _).weaken _
  · rintro _ _ after ⟨_, rfl, token, name, named, _, rfl, _, rfl, params, _, derivedParams, _, rfl,
      locals, _, derivedLocals, body, _, derivedBody, rfl, rfl⟩
    rw [name?_eq_some.mp named]
    exact .declare name derivedParams derivedLocals derivedBody
  · intro twin value rest _
    rw [procedure]
    simp [Phrase.take]

theorem explains_procedures (parser : Parser) :
    Explains .procedures parser (procedures parser) := by
  rw [procedures]
  refine .rule (.choose (· ≠ some .kwProcedure) (.done []) (.seq .procedure fun first =>
    .seq .procedures fun others => .done (first :: others))) ?_ ?_ ?_
  · split
    next starts =>
      exact .inr (.bind (explains_procedure parser) fun first rest _ =>
        ((explains_procedures rest).map _).weaken _) (absurd starts)
    next other => exact explains_done.inl other
  · rintro _ _ after (⟨rfl, rfl⟩ | ⟨first, _, derived, others, _, derivedOthers, rfl, rfl⟩)
    · exact .none
    · exact .some derived derivedOthers
  · intro twin value rest _
    rw [procedures]
    split
    next starts => simp [starts]
    next other => simp [other]
termination_by parser.size

/-- Nothing, if nothing is behind it. -/
def Phrase.finish {α : Type} (value : α) : Phrase α where
  derives tokens result after := value = result ∧ (after = [] → tokens = [])
  gives parser result rest := parser.current = none ∧ value = result ∧ parser = rest
  unique := by
    rintro parser _ _ _ _ ⟨-, rfl, rfl⟩ ⟨-, rfl, rfl⟩
    exact ⟨rfl, rfl⟩
  filler := []
  filling := value
  fills _ _ := ⟨rfl, id⟩

theorem explains_program (parser : Parser) : Explains .program parser (program parser) := by
  rw [program]
  refine .rule (.seq .declarations fun globals => .seq .procedures fun procs =>
    .seq .statement fun body => .finish ⟨globals, procs, body⟩) ?_ ?_ ?_
  · refine .bind (explains_declarations parser) fun globals rest _ =>
      .bind (explains_procedures rest) fun procs rest _ =>
        .bind (explains_statement rest) fun body rest _ => ?_
    split
    next ended =>
      exact explains_nothing (fun _ => ⟨rfl, id⟩) fun same => ⟨same.trans ended, rfl, rfl⟩
    next goesOn =>
      apply explains_unexpected
      rintro twin value rest' same ⟨ended, -⟩
      exact goesOn (same.symm.trans ended)
  · rintro tokens _ after ⟨globals, _, derivedGlobals, procs, _, derivedProcs, body, _, derivedBody,
      rfl, ends⟩ ended
    rw [ends ended] at derivedBody
    exact .whole derivedGlobals derivedProcs derivedBody
  · intro twin value rest _
    rw [program]
    simp only [Parsed.gives_bind]
    constructor
    · rintro ⟨globals, _, givesGlobals, procs, _, givesProcs, body, _, givesBody, gives⟩
      refine ⟨globals, _, givesGlobals, procs, _, givesProcs, body, _, givesBody, ?_⟩
      split at gives
      next ended => exact ⟨ended, Parsed.gives_ok.mp gives⟩
      next => exact absurd gives not_gives_unexpected
    · rintro ⟨globals, _, givesGlobals, procs, _, givesProcs, body, _, givesBody, ended, equal⟩
      refine ⟨globals, _, givesGlobals, procs, _, givesProcs, body, _, givesBody, ?_⟩
      rw [if_pos ended]
      exact Parsed.gives_ok.mpr equal

theorem current_of_program {parser rest : Parser} {tree : Program}
    (gives : (program parser).Gives tree rest) : rest.current = none := by
  rw [program] at gives
  simp only [Parsed.gives_bind] at gives
  obtain ⟨globals, _, _, procs, _, _, body, _, _, gives⟩ := gives
  split at gives
  next ended =>
    obtain ⟨-, rfl⟩ := Parsed.gives_ok.mp gives
    exact ended
  next => exact absurd gives not_gives_unexpected

/-- The parser keeps to the grammar: what it reads as a program derives it. -/
theorem derives_program {parser rest : Parser} {tree : Program}
    (gives : (program parser).Gives tree rest) :
    ∃ tokens, parser.Reads tokens ∧ Grammar.Program tokens tree := by
  have ended : rest.Reads [] := current_of_program gives
  have explained := explains_program parser
  obtain ⟨below, succeeds⟩ := gives
  rw [succeeds] at explained
  cases explained with
  | ok tokens consumes covers _ =>
      exact ⟨tokens ++ [], consumes.reads ended, covers [] (.inr trivial) rfl⟩

end MiniPascal.Parser
