import MiniPascal.Proofs.Parser.Steps

/-!
# The parser finds every derivation

Where the tokens in front of a parser derive a value, the step for that rule succeeds with this
value and leaves the tokens behind it. The proofs are by induction on the derivation. A rule that
may go on, such as a sum, needs to know that the next token does not let it go on.
-/

namespace MiniPascal.Parser

/-- The step succeeds with `value` and leaves a parser that reads `after`. -/
def Parsed.Yields {α : Type} {bound : Nat} (step : Parsed α bound) (value : α)
    (after : List Token) : Prop :=
  ∃ rest, step.Gives value rest ∧ rest.Reads after

/-- The expression in front of the parser is whatever comes of `value` as the left operand of a sum
that goes on with `after`. -/
def SumFrom (parser : Parser) (value : Expr) (after : List Token) : Prop :=
  ∃ middle, middle.Reads after ∧
    ∀ {result rest}, (sum value middle).Gives result rest → (expression parser).Gives result rest

/-- The term in front of the parser is whatever comes of `value` as the left operand of a product
that goes on with `after`. -/
def ProductFrom (parser : Parser) (value : Expr) (after : List Token) : Prop :=
  ∃ middle, middle.Reads after ∧
    ∀ {result rest}, (product value middle).Gives result rest → (term parser).Gives result rest

/-- No token of a kind is in front. -/
def Lacks {α : Type} (tokens : List Token) (select : Token → Option α) : Prop :=
  tokens.head?.bind select = none

section Stopping

variable {parser : Parser} {tokens : List Token} {value : Expr}

theorem Reads.accept?_eq_none {α : Type} {select : Token → Option α} (reads : parser.Reads tokens)
    (lacks : Lacks tokens select) : parser.accept? select = none := by
  rw [Parser.accept?_eq_none, reads.current]
  exact lacks

theorem Reads.acceptToken?_eq_none {token : Token} (reads : parser.Reads tokens)
    (differs : tokens.head? ≠ some token) : parser.acceptToken? token = none := by
  rw [Parser.acceptToken?_eq_none, reads.current]
  exact differs

/-- A term ends in front of a token that is no operator of a product. -/
theorem ProductFrom.yields (leads : parser.ProductFrom value tokens)
    (lacks : Lacks tokens Token.multiplicative?) : (term parser).Yields value tokens := by
  obtain ⟨middle, reads, prolong⟩ := leads
  have stops := reads.accept?_eq_none lacks
  exact ⟨middle, prolong (gives_product.mpr (.inl ⟨stops, rfl, rfl⟩)), reads⟩

/-- An expression ends in front of a token that is no operator of a sum. -/
theorem SumFrom.yields (leads : parser.SumFrom value tokens)
    (lacks : Lacks tokens Token.additive?) : (expression parser).Yields value tokens := by
  obtain ⟨middle, reads, prolong⟩ := leads
  have stops := reads.accept?_eq_none lacks
  exact ⟨middle, prolong (gives_sum.mpr (.inl ⟨stops, rfl, rfl⟩)), reads⟩

theorem lacks_multiplicative_of_additive {token : Token} {operator : Operator}
    (additive : Grammar.Additive token operator) :
    Lacks (token :: tokens) Token.multiplicative? := by
  cases additive <;> rfl

theorem lacks_of_moreArguments {args : List Expr} {after : List Token}
    (derived : Grammar.MoreArguments tokens args after) :
    Lacks tokens Token.multiplicative? ∧ Lacks tokens Token.additive? := by
  cases derived <;> simp [Lacks, Token.multiplicative?, Token.additive?]

end Stopping

mutual

theorem sumFrom_of_expression {parser : Parser} : {tokens after : List Token} → {value : Expr} →
    Grammar.Expression tokens value after → parser.Reads tokens →
    Lacks after Token.multiplicative? → parser.SumFrom value after
  | _, after, value, .term derived, reads, lacks => by
      obtain ⟨middle, givesTerm, readsMiddle⟩ := (productFrom_of_term derived reads).yields lacks
      exact ⟨middle, readsMiddle, fun gives => gives_expression.mpr ⟨_, _, givesTerm, gives⟩⟩
  | _, after, _, .sum derivedLeft additive derivedRight, reads, lacks => by
      obtain ⟨middle, readsMiddle, prolong⟩ :=
        sumFrom_of_expression derivedLeft reads (lacks_multiplicative_of_additive additive)
      obtain ⟨middle', takes, readsMiddle'⟩ := readsMiddle.takes
      obtain ⟨rest, givesRight, readsRest⟩ :=
        (productFrom_of_term derivedRight readsMiddle').yields lacks
      exact ⟨rest, readsRest, fun gives => prolong (gives_sum.mpr
        (.inr ⟨_, _, ⟨_, additive?_eq_some.mpr additive, takes⟩, _, _, givesRight, gives⟩))⟩

theorem productFrom_of_term {parser : Parser} : {tokens after : List Token} → {value : Expr} →
    Grammar.Term tokens value after → parser.Reads tokens → parser.ProductFrom value after
  | _, after, value, .factor derived, reads => by
      obtain ⟨rest, givesFactor, readsRest⟩ := yields_factor derived reads
      exact ⟨rest, readsRest, fun gives => gives_term.mpr ⟨_, _, givesFactor, gives⟩⟩
  | _, after, _, .product derivedLeft multiplicative derivedRight, reads => by
      obtain ⟨middle, readsMiddle, prolong⟩ := productFrom_of_term derivedLeft reads
      obtain ⟨middle', takes, readsMiddle'⟩ := readsMiddle.takes
      obtain ⟨rest, givesRight, readsRest⟩ := yields_factor derivedRight readsMiddle'
      exact ⟨rest, readsRest, fun gives => prolong (gives_product.mpr
        (.inr ⟨_, _, ⟨_, multiplicative?_eq_some.mpr multiplicative, takes⟩, _, _, givesRight,
          gives⟩))⟩

theorem yields_factor {parser : Parser} : {tokens after : List Token} → {value : Expr} →
    Grammar.Factor tokens value after → parser.Reads tokens →
    (factor parser).Yields value after
  | _, after, value, .parentheses derived, reads => by
      obtain ⟨middle, takesOpen, readsMiddle⟩ := reads.takes
      obtain ⟨middle', givesInner, readsMiddle'⟩ :=
        (sumFrom_of_expression derived readsMiddle rfl).yields rfl
      obtain ⟨rest, takesClose, readsRest⟩ := readsMiddle'.takes
      refine ⟨rest, ?_, readsRest⟩
      rw [factor]
      simp only [reads.current, List.head?_cons, Parsed.gives_bind, gives_expect,
        Parsed.gives_weaken, Parsed.gives_map, exists_prop]
      exact ⟨(), _, takesOpen, _, _, givesInner, (), takesClose, rfl⟩
  | _, after, _, .negation derived, reads => by
      obtain ⟨middle, takesMinus, readsMiddle⟩ := reads.takes
      obtain ⟨rest, givesInner, readsRest⟩ := yields_factor derived readsMiddle
      refine ⟨rest, ?_, readsRest⟩
      rw [factor]
      simp only [reads.current, List.head?_cons, Parsed.gives_bind, gives_expect,
        Parsed.gives_weaken, Parsed.gives_map, exists_prop]
      exact ⟨(), _, takesMinus, _, givesInner, rfl⟩
  | _, after, _, .number value, reads => by
      obtain ⟨rest, takes, readsRest⟩ := reads.takes
      refine ⟨rest, ?_, readsRest⟩
      rw [factor]
      simp only [reads.current, List.head?_cons, Parsed.gives_map, gives_expect, and_true]
      exact ⟨(), takes⟩
  | _, after, _, .variable name notCall, reads => by
      obtain ⟨rest, takes, readsRest⟩ := reads.takes
      refine ⟨rest, ?_, readsRest⟩
      rw [factor]
      simp only [reads.current, List.head?_cons, Parsed.gives_bind, gives_expect]
      refine ⟨(), rest, takes, ?_⟩
      simp [readsRest.acceptToken?_eq_none notCall]
  | _, after, _, .call name derived, reads => by
      obtain ⟨middle, takes, readsMiddle⟩ := reads.takes
      obtain ⟨middle', takes', readsMiddle'⟩ := readsMiddle.takes
      obtain ⟨step, accepted, givesStep⟩ := takes'.acceptToken?
      obtain ⟨rest, givesArgs, readsRest⟩ := yields_arguments derived readsMiddle'
      refine ⟨rest, ?_, readsRest⟩
      rw [factor]
      simp only [reads.current, List.head?_cons, Parsed.gives_bind, gives_expect]
      refine ⟨(), middle, takes, ?_⟩
      simp only [accepted, Parsed.gives_bind, Parsed.gives_weaken, Parsed.gives_map, exists_prop]
      exact ⟨(), middle', givesStep, _, givesArgs, rfl⟩

theorem yields_arguments {parser : Parser} : {tokens after : List Token} → {args : List Expr} →
    Grammar.Arguments tokens args after → parser.Reads tokens →
    (arguments parser).Yields args after
  | _, after, _, .none, reads => by
      obtain ⟨rest, takes, readsRest⟩ := reads.takes
      obtain ⟨step, accepted, givesStep⟩ := takes.acceptToken?
      refine ⟨rest, ?_, readsRest⟩
      rw [arguments, accepted]
      exact Parsed.gives_map.mpr ⟨(), givesStep, rfl⟩
  | _, after, _, .some derivedFirst derivedOthers, reads => by
      obtain ⟨lacksProduct, lacksSum⟩ := lacks_of_moreArguments derivedOthers
      obtain ⟨middle, givesFirst, readsMiddle⟩ :=
        (sumFrom_of_expression derivedFirst reads lacksProduct).yields lacksSum
      obtain ⟨rest, givesOthers, readsRest⟩ := yields_moreArguments derivedOthers readsMiddle
      refine ⟨rest, ?_, readsRest⟩
      rw [arguments, reads.acceptToken?_eq_none derivedFirst.head_ne_rightParen]
      simp only [Parsed.gives_bind, Parsed.gives_weaken, Parsed.gives_map, exists_prop]
      exact ⟨_, _, givesFirst, _, givesOthers, rfl⟩

theorem yields_moreArguments {parser : Parser} : {tokens after : List Token} → {args : List Expr} →
    Grammar.MoreArguments tokens args after → parser.Reads tokens →
    (moreArguments parser).Yields args after
  | _, after, _, .none, reads => by
      obtain ⟨rest, takes, readsRest⟩ := reads.takes
      refine ⟨rest, ?_, readsRest⟩
      rw [moreArguments, reads.acceptToken?_eq_none (by simp)]
      exact Parsed.gives_map.mpr ⟨(), gives_expect.mpr takes, rfl⟩
  | _, after, _, .some derivedFirst derivedOthers, reads => by
      obtain ⟨lacksProduct, lacksSum⟩ := lacks_of_moreArguments derivedOthers
      obtain ⟨middle, takes, readsMiddle⟩ := reads.takes
      obtain ⟨step, accepted, givesStep⟩ := takes.acceptToken?
      obtain ⟨middle', givesFirst, readsMiddle'⟩ :=
        (sumFrom_of_expression derivedFirst readsMiddle lacksProduct).yields lacksSum
      obtain ⟨rest, givesOthers, readsRest⟩ := yields_moreArguments derivedOthers readsMiddle'
      refine ⟨rest, ?_, readsRest⟩
      rw [moreArguments, accepted]
      simp only [Parsed.gives_bind, Parsed.gives_weaken, Parsed.gives_map, exists_prop]
      exact ⟨(), middle, givesStep, _, _, givesFirst, _, givesOthers, rfl⟩

end

/-- A derived expression is found if the token behind it continues neither a product nor a sum. -/
theorem yields_expression {parser : Parser} {tokens after : List Token} {value : Expr}
    (derived : Grammar.Expression tokens value after) (reads : parser.Reads tokens)
    (lacksProduct : Lacks after Token.multiplicative?) (lacksSum : Lacks after Token.additive?) :
    (expression parser).Yields value after :=
  (sumFrom_of_expression derived reads lacksProduct).yields lacksSum

theorem yields_condition {parser : Parser} {tokens after : List Token} {test : Condition}
    (derived : Grammar.Condition tokens test after) (reads : parser.Reads tokens)
    (lacksProduct : Lacks after Token.multiplicative?) (lacksSum : Lacks after Token.additive?) :
    (condition parser).Yields test after := by
  cases derived with
  | compare derivedLeft derivedRight =>
      obtain ⟨middle, givesLeft, readsMiddle⟩ := yields_expression derivedLeft reads rfl rfl
      obtain ⟨middle', takes, readsMiddle'⟩ := readsMiddle.takes
      obtain ⟨rest, givesRight, readsRest⟩ :=
        yields_expression derivedRight readsMiddle' lacksProduct lacksSum
      refine ⟨rest, ?_, readsRest⟩
      rw [condition]
      simp only [Parsed.gives_bind, gives_require, accepts_comparison, Parsed.gives_weaken,
        Parsed.gives_map, exists_prop]
      exact ⟨_, _, givesLeft, _, _, takes, _, givesRight, rfl⟩

mutual

theorem yields_statement {parser : Parser} : {tokens after : List Token} → {stmt : Stmt} →
    Grammar.Statement tokens stmt after → parser.Reads tokens →
    (statement parser).Yields stmt after
  | _, after, _, .write derived, reads => by
      obtain ⟨_, takesWriteln, readsOpen⟩ := reads.takes
      obtain ⟨_, takesOpen, readsValue⟩ := readsOpen.takes
      obtain ⟨_, givesValue, readsClose⟩ := yields_expression derived readsValue rfl rfl
      obtain ⟨_, takesClose, readsEnd⟩ := readsClose.takes
      obtain ⟨rest, takesEnd, readsRest⟩ := readsEnd.takes
      refine ⟨rest, ?_, readsRest⟩
      rw [statement]
      simp only [reads.current, List.head?_cons, Parsed.gives_bind, gives_expect,
        Parsed.gives_weaken, Parsed.gives_map, exists_prop]
      exact ⟨(), _, takesWriteln, (), _, takesOpen, _, _, givesValue, (), _, takesClose, (),
        takesEnd, rfl⟩
  | _, after, _, .read target, reads => by
      obtain ⟨_, takesReadln, readsOpen⟩ := reads.takes
      obtain ⟨_, takesOpen, readsTarget⟩ := readsOpen.takes
      obtain ⟨_, takesTarget, readsClose⟩ := readsTarget.takes
      obtain ⟨_, takesClose, readsEnd⟩ := readsClose.takes
      obtain ⟨rest, takesEnd, readsRest⟩ := readsEnd.takes
      refine ⟨rest, ?_, readsRest⟩
      rw [statement]
      simp only [reads.current, List.head?_cons, Parsed.gives_bind, gives_expect, gives_name,
        Parsed.gives_weaken, Parsed.gives_map, exists_prop]
      exact ⟨(), _, takesReadln, (), _, takesOpen, _, _, takesTarget, (), _, takesClose, (),
        takesEnd, rfl⟩
  | _, after, _, .block derived, reads => by
      obtain ⟨_, takesBegin, readsBody⟩ := reads.takes
      obtain ⟨_, givesBody, readsEnd⟩ := yields_statements derived readsBody rfl
      obtain ⟨_, takesEnd, readsSemicolon⟩ := readsEnd.takes
      obtain ⟨rest, takesSemicolon, readsRest⟩ := readsSemicolon.takes
      refine ⟨rest, ?_, readsRest⟩
      rw [statement]
      simp only [reads.current, List.head?_cons, Parsed.gives_bind, gives_expect,
        Parsed.gives_weaken, Parsed.gives_map, exists_prop]
      exact ⟨(), _, takesBegin, _, _, givesBody, (), _, takesEnd, (), takesSemicolon, rfl⟩
  | _, after, _, .ifThen derivedTest derivedThen notElse, reads => by
      obtain ⟨_, takesIf, readsTest⟩ := reads.takes
      obtain ⟨_, givesTest, readsThen⟩ := yields_condition derivedTest readsTest rfl rfl
      obtain ⟨_, takesThen, readsBranch⟩ := readsThen.takes
      obtain ⟨rest, givesBranch, readsRest⟩ := yields_statement derivedThen readsBranch
      refine ⟨rest, ?_, readsRest⟩
      rw [statement]
      simp only [reads.current, List.head?_cons, Parsed.gives_bind, gives_expect]
      refine ⟨(), _, takesIf, _, _, givesTest, (), _, takesThen, _, _, givesBranch, ?_⟩
      simp [readsRest.acceptToken?_eq_none notElse]
  | _, after, _, .ifElse derivedTest derivedThen derivedElse, reads => by
      obtain ⟨_, takesIf, readsTest⟩ := reads.takes
      obtain ⟨_, givesTest, readsThen⟩ := yields_condition derivedTest readsTest rfl rfl
      obtain ⟨_, takesThen, readsBranch⟩ := readsThen.takes
      obtain ⟨_, givesBranch, readsElse⟩ := yields_statement derivedThen readsBranch
      obtain ⟨_, takesElse, readsOther⟩ := readsElse.takes
      obtain ⟨step, accepted, givesStep⟩ := takesElse.acceptToken?
      obtain ⟨rest, givesOther, readsRest⟩ := yields_statement derivedElse readsOther
      refine ⟨rest, ?_, readsRest⟩
      rw [statement]
      simp only [reads.current, List.head?_cons, Parsed.gives_bind, gives_expect]
      refine ⟨(), _, takesIf, _, _, givesTest, (), _, takesThen, _, _, givesBranch, ?_⟩
      simp only [accepted, Parsed.gives_bind, Parsed.gives_weaken, Parsed.gives_map, exists_prop]
      exact ⟨(), _, givesStep, _, givesOther, rfl⟩
  | _, after, _, .loop derivedTest derivedBody, reads => by
      obtain ⟨_, takesWhile, readsTest⟩ := reads.takes
      obtain ⟨_, givesTest, readsDo⟩ := yields_condition derivedTest readsTest rfl rfl
      obtain ⟨_, takesDo, readsBody⟩ := readsDo.takes
      obtain ⟨rest, givesBody, readsRest⟩ := yields_statement derivedBody readsBody
      refine ⟨rest, ?_, readsRest⟩
      rw [statement]
      simp only [reads.current, List.head?_cons, Parsed.gives_bind, gives_expect,
        Parsed.gives_weaken, Parsed.gives_map, exists_prop]
      exact ⟨(), _, takesWhile, _, _, givesTest, (), _, takesDo, _, givesBody, rfl⟩
  | _, after, _, .assign target derived, reads => by
      obtain ⟨_, takesTarget, readsAssign⟩ := reads.takes
      obtain ⟨_, takesAssign, readsValue⟩ := readsAssign.takes
      obtain ⟨_, givesValue, readsEnd⟩ := yields_expression derived readsValue rfl rfl
      obtain ⟨rest, takesEnd, readsRest⟩ := readsEnd.takes
      refine ⟨rest, ?_, readsRest⟩
      rw [statement]
      simp only [reads.current, List.head?_cons, Parsed.gives_bind, gives_expect,
        Parsed.gives_weaken, Parsed.gives_map, exists_prop]
      exact ⟨(), _, takesTarget, (), _, takesAssign, _, _, givesValue, (), takesEnd, rfl⟩

theorem yields_statements {parser : Parser} : {tokens after : List Token} → {body : List Stmt} →
    Grammar.Statements tokens body after → parser.Reads tokens → after.head? = some .kwEnd →
    (statements parser).Yields body after
  | tokens, _, _, .none, reads, ended => by
      refine ⟨parser, ?_, reads⟩
      rw [statements, if_pos (reads.current.trans ended)]
      exact Parsed.gives_ok.mpr ⟨rfl, rfl⟩
  | tokens, _, _, .some derivedFirst derivedOthers, reads, ended => by
      have notEnd : parser.current ≠ some .kwEnd := by
        rw [reads.current]
        exact derivedFirst.head.1
      obtain ⟨_, givesFirst, readsOthers⟩ := yields_statement derivedFirst reads
      obtain ⟨rest, givesOthers, readsRest⟩ := yields_statements derivedOthers readsOthers ended
      refine ⟨rest, ?_, readsRest⟩
      rw [statements, if_neg notEnd]
      simp only [Parsed.gives_bind, Parsed.gives_weaken, Parsed.gives_map, exists_prop]
      exact ⟨_, _, givesFirst, _, givesOthers, rfl⟩

end

theorem gives_names {parser rest : Parser} {names : List String} :
    (Parser.names parser).Gives names rest ↔ ∃ first middle, parser.Takes (.ident first) middle ∧
      ∃ others, (moreNames middle).Gives others rest ∧ first :: others = names := by
  rw [Parser.names]
  simp

theorem Takes.gives_moreNames {parser middle rest : Parser} {names : List String}
    (takes : parser.Takes .comma middle) (gives : (Parser.names middle).Gives names rest) :
    (moreNames parser).Gives names rest := by
  obtain ⟨first, middle', takesFirst, others, givesOthers, rfl⟩ := gives_names.mp gives
  obtain ⟨step, accepted, givesStep⟩ := takes.acceptToken?
  rw [moreNames, accepted]
  simp only [Parsed.gives_bind, gives_name, Parsed.gives_weaken, Parsed.gives_map, exists_prop]
  exact ⟨(), middle, givesStep, first, middle', takesFirst, others, givesOthers, rfl⟩

theorem yields_names {parser : Parser} {tokens after : List Token} {names : List String}
    (derived : Grammar.Names tokens names after) (reads : parser.Reads tokens)
    (notComma : after.head? ≠ some .comma) : (Parser.names parser).Yields names after := by
  induction derived generalizing parser with
  | one name =>
      obtain ⟨rest, takes, readsRest⟩ := reads.takes
      have stops : (moreNames rest).Gives [] rest := by
        rw [moreNames, readsRest.acceptToken?_eq_none notComma]
        exact Parsed.gives_ok.mpr ⟨rfl, rfl⟩
      exact ⟨rest, gives_names.mpr ⟨name, rest, takes, [], stops, rfl⟩, readsRest⟩
  | more name _ ih =>
      obtain ⟨middle, takesName, readsComma⟩ := reads.takes
      obtain ⟨middle', takesComma, readsOthers⟩ := readsComma.takes
      obtain ⟨rest, givesOthers, readsRest⟩ := ih readsOthers notComma
      have goesOn := takesComma.gives_moreNames givesOthers
      exact ⟨rest, gives_names.mpr ⟨name, middle, takesName, _, goesOn, rfl⟩, readsRest⟩

theorem yields_declarations {parser : Parser} {tokens after : List Token} {declared : List String}
    (derived : Grammar.Declarations tokens declared after) (reads : parser.Reads tokens)
    (notVar : after.head? ≠ some .kwVar) : (declarations parser).Yields declared after := by
  induction derived generalizing parser with
  | none =>
      refine ⟨parser, ?_, reads⟩
      rw [declarations, reads.acceptToken?_eq_none notVar]
      exact Parsed.gives_ok.mpr ⟨rfl, rfl⟩
  | some derivedNames _ ih =>
      obtain ⟨middle, takesVar, readsNames⟩ := reads.takes
      obtain ⟨step, accepted, givesStep⟩ := takesVar.acceptToken?
      obtain ⟨_, givesNames, readsSemicolon⟩ := yields_names derivedNames readsNames (by simp)
      obtain ⟨_, takesSemicolon, readsOthers⟩ := readsSemicolon.takes
      obtain ⟨rest, givesOthers, readsRest⟩ := ih readsOthers notVar
      refine ⟨rest, ?_, readsRest⟩
      rw [declarations, accepted]
      simp only [Parsed.gives_bind, gives_expect, Parsed.gives_weaken, Parsed.gives_map,
        exists_prop]
      exact ⟨(), _, givesStep, _, _, givesNames, (), _, takesSemicolon, _, givesOthers, rfl⟩

theorem yields_parameters {parser : Parser} {tokens after : List Token} {params : List String}
    (derived : Grammar.Parameters tokens params after) (reads : parser.Reads tokens) :
    (parameters parser).Yields params after := by
  cases derived with
  | none =>
      obtain ⟨rest, takes, readsRest⟩ := reads.takes
      obtain ⟨step, accepted, givesStep⟩ := takes.acceptToken?
      refine ⟨rest, ?_, readsRest⟩
      rw [parameters, accepted]
      exact Parsed.gives_map.mpr ⟨(), givesStep, rfl⟩
  | some derivedNames =>
      obtain ⟨_, givesNames, readsClose⟩ := yields_names derivedNames reads (by simp)
      obtain ⟨rest, takesClose, readsRest⟩ := readsClose.takes
      refine ⟨rest, ?_, readsRest⟩
      rw [parameters, reads.acceptToken?_eq_none derivedNames.head_ne_rightParen]
      simp only [Parsed.gives_bind, gives_expect, Parsed.gives_weaken, Parsed.gives_map,
        exists_prop]
      exact ⟨_, _, givesNames, (), takesClose, rfl⟩

theorem yields_procedure {parser : Parser} {tokens after : List Token} {proc : Procedure}
    (derived : Grammar.Procedure tokens proc after) (reads : parser.Reads tokens) :
    (procedure parser).Yields proc after := by
  cases derived with
  | declare name derivedParams derivedLocals derivedBody =>
      obtain ⟨_, takesProcedure, readsName⟩ := reads.takes
      obtain ⟨_, takesName, readsOpen⟩ := readsName.takes
      obtain ⟨_, takesOpen, readsParams⟩ := readsOpen.takes
      obtain ⟨_, givesParams, readsSemicolon⟩ := yields_parameters derivedParams readsParams
      obtain ⟨_, takesSemicolon, readsLocals⟩ := readsSemicolon.takes
      obtain ⟨_, givesLocals, readsBody⟩ :=
        yields_declarations derivedLocals readsLocals derivedBody.head.2.1
      obtain ⟨rest, givesBody, readsRest⟩ := yields_statement derivedBody readsBody
      refine ⟨rest, ?_, readsRest⟩
      rw [procedure]
      simp only [Parsed.gives_bind, gives_expect, gives_name, Parsed.gives_weaken,
        Parsed.gives_map, exists_prop]
      exact ⟨(), _, takesProcedure, name, _, takesName, (), _, takesOpen, _, _, givesParams, (), _,
        takesSemicolon, _, _, givesLocals, _, givesBody, rfl⟩

theorem yields_procedures {parser : Parser} {tokens after : List Token} {procs : List Procedure}
    (derived : Grammar.Procedures tokens procs after) (reads : parser.Reads tokens)
    (notProcedure : after.head? ≠ some .kwProcedure) :
    (procedures parser).Yields procs after := by
  induction derived generalizing parser with
  | none =>
      have stops : parser.current ≠ some .kwProcedure := reads.current ▸ notProcedure
      refine ⟨parser, ?_, reads⟩
      rw [procedures, if_neg stops]
      exact Parsed.gives_ok.mpr ⟨rfl, rfl⟩
  | some derivedFirst _ ih =>
      have starts : parser.current = some .kwProcedure := by
        rw [reads.current]
        cases derivedFirst
        rfl
      obtain ⟨_, givesFirst, readsOthers⟩ := yields_procedure derivedFirst reads
      obtain ⟨rest, givesOthers, readsRest⟩ := ih readsOthers notProcedure
      refine ⟨rest, ?_, readsRest⟩
      rw [procedures, if_pos starts]
      simp only [Parsed.gives_bind, Parsed.gives_weaken, Parsed.gives_map, exists_prop]
      exact ⟨_, _, givesFirst, _, givesOthers, rfl⟩

/-- What stands behind the declarations of a program is no declaration. -/
theorem head_ne_kwVar_of_procedures {tokens middle after : List Token} {procs : List Procedure}
    {body : Stmt} (derivedProcs : Grammar.Procedures tokens procs middle)
    (derivedBody : Grammar.Statement middle body after) : tokens.head? ≠ some .kwVar := by
  cases derivedProcs with
  | none => exact derivedBody.head.2.1
  | some derivedFirst _ =>
      cases derivedFirst
      simp

theorem yields_program {parser : Parser} {tokens : List Token} {tree : Program}
    (derived : Grammar.Program tokens tree) (reads : parser.Reads tokens) :
    (program parser).Yields tree [] := by
  cases derived with
  | whole derivedGlobals derivedProcs derivedBody =>
      obtain ⟨_, givesGlobals, readsProcs⟩ := yields_declarations derivedGlobals reads
        (head_ne_kwVar_of_procedures derivedProcs derivedBody)
      obtain ⟨_, givesProcs, readsBody⟩ :=
        yields_procedures derivedProcs readsProcs derivedBody.head.2.2
      obtain ⟨rest, givesBody, readsRest⟩ := yields_statement derivedBody readsBody
      have ended : rest.current = none := readsRest
      refine ⟨rest, ?_, readsRest⟩
      rw [program]
      simp only [Parsed.gives_bind]
      refine ⟨_, _, givesGlobals, _, _, givesProcs, _, _, givesBody, ?_⟩
      simp [ended]

end MiniPascal.Parser
