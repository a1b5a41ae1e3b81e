import MiniPascal.Proofs.Parser.Correctness
import MiniPascal.Proofs.Printer.Reparse

/-!
# Printing and parsing

Every tree that comes from a text is printable and has no negative numbers. Printing a printable
tree and parsing the text gives the tree back, with its negative numbers replaced by negations.
-/

namespace MiniPascal

open Grammar

/-- All of the tokens are ones that a source text can say. -/
def AllSpellable (tokens : List Token) : Prop :=
  ∀ token ∈ tokens, token.spellable

theorem allSpellable_cons {token : Token} {tokens : List Token} :
    AllSpellable (token :: tokens) ↔ token.spellable ∧ AllSpellable tokens :=
  List.forall_mem_cons

mutual

theorem printable_expression : {tokens rest : List Token} → {value : Expr} →
    Expression tokens value rest → AllSpellable tokens →
    value.printable unsigned ∧ AllSpellable rest
  | _, _, _, .term derived, spellable => printable_term derived spellable
  | _, _, _, .sum derivedLeft _ derivedRight, spellable => by
      obtain ⟨printableLeft, spellableMiddle⟩ := printable_expression derivedLeft spellable
      obtain ⟨printableRight, spellableRest⟩ :=
        printable_term derivedRight (allSpellable_cons.mp spellableMiddle).2
      exact ⟨by simp [Expr.printable, printableLeft, printableRight], spellableRest⟩

theorem printable_term : {tokens rest : List Token} → {value : Expr} →
    Term tokens value rest → AllSpellable tokens → value.printable unsigned ∧ AllSpellable rest
  | _, _, _, .factor derived, spellable => printable_factor derived spellable
  | _, _, _, .product derivedLeft _ derivedRight, spellable => by
      obtain ⟨printableLeft, spellableMiddle⟩ := printable_term derivedLeft spellable
      obtain ⟨printableRight, spellableRest⟩ :=
        printable_factor derivedRight (allSpellable_cons.mp spellableMiddle).2
      exact ⟨by simp [Expr.printable, printableLeft, printableRight], spellableRest⟩

theorem printable_factor : {tokens rest : List Token} → {value : Expr} →
    Factor tokens value rest → AllSpellable tokens → value.printable unsigned ∧ AllSpellable rest
  | _, _, _, .parentheses derived, spellable => by
      obtain ⟨printableInner, spellableClose⟩ :=
        printable_expression derived (allSpellable_cons.mp spellable).2
      exact ⟨printableInner, (allSpellable_cons.mp spellableClose).2⟩
  | _, _, _, .negation derived, spellable => by
      obtain ⟨printableInner, spellableRest⟩ :=
        printable_factor derived (allSpellable_cons.mp spellable).2
      have zero : unsigned 0 := by decide
      exact ⟨by simp [Expr.printable, zero, printableInner], spellableRest⟩
  | _, _, _, .number value, spellable => allSpellable_cons.mp spellable
  | _, _, _, .variable name _, spellable => allSpellable_cons.mp spellable
  | _, _, _, .call name derived, spellable => by
      obtain ⟨plain, spellableOpen⟩ := allSpellable_cons.mp spellable
      obtain ⟨printableArgs, spellableRest⟩ :=
        printable_arguments derived (allSpellable_cons.mp spellableOpen).2
      have plain : isPlainName name := plain
      exact ⟨by simp [Expr.printable, plain, printableArgs], spellableRest⟩

theorem printable_arguments : {tokens rest : List Token} → {args : List Expr} →
    Arguments tokens args rest → AllSpellable tokens →
    Expr.printableAll unsigned args ∧ AllSpellable rest
  | _, _, _, .none, spellable => ⟨rfl, (allSpellable_cons.mp spellable).2⟩
  | _, _, _, .some derivedFirst derivedOthers, spellable => by
      obtain ⟨printableFirst, spellableMiddle⟩ := printable_expression derivedFirst spellable
      obtain ⟨printableOthers, spellableRest⟩ :=
        printable_moreArguments derivedOthers spellableMiddle
      exact ⟨by simp [Expr.printableAll, printableFirst, printableOthers], spellableRest⟩

theorem printable_moreArguments : {tokens rest : List Token} → {args : List Expr} →
    MoreArguments tokens args rest → AllSpellable tokens →
    Expr.printableAll unsigned args ∧ AllSpellable rest
  | _, _, _, .none, spellable => ⟨rfl, (allSpellable_cons.mp spellable).2⟩
  | _, _, _, .some derivedFirst derivedOthers, spellable => by
      obtain ⟨printableFirst, spellableMiddle⟩ :=
        printable_expression derivedFirst (allSpellable_cons.mp spellable).2
      obtain ⟨printableOthers, spellableRest⟩ :=
        printable_moreArguments derivedOthers spellableMiddle
      exact ⟨by simp [Expr.printableAll, printableFirst, printableOthers], spellableRest⟩

end

theorem printable_condition {tokens rest : List Token} {test : Condition}
    (derived : Grammar.Condition tokens test rest) (spellable : AllSpellable tokens) :
    test.printable unsigned ∧ AllSpellable rest := by
  cases derived with
  | compare derivedLeft derivedRight =>
      obtain ⟨printableLeft, spellableMiddle⟩ := printable_expression derivedLeft spellable
      obtain ⟨printableRight, spellableRest⟩ :=
        printable_expression derivedRight (allSpellable_cons.mp spellableMiddle).2
      exact ⟨by simp [Condition.printable, printableLeft, printableRight], spellableRest⟩

/-- No `ELSE` stands behind a derived statement that ends open. -/
theorem head_ne_kwElse_of_endsOpen : {tokens rest : List Token} → {tree : Stmt} →
    Statement tokens tree rest → tree.endsOpen → rest.head? ≠ some .kwElse
  | _, _, _, .ifThen _ _ notElse, _ => notElse
  | _, _, _, .ifElse _ _ derivedElse, opens => head_ne_kwElse_of_endsOpen derivedElse opens
  | _, _, _, .loop _ derivedBody, opens => head_ne_kwElse_of_endsOpen derivedBody opens
  | _, _, _, .write _, opens => by cases opens
  | _, _, _, .read _, opens => by cases opens
  | _, _, _, .block _, opens => by cases opens
  | _, _, _, .assign _ _, opens => by cases opens

mutual

theorem printable_statement : {tokens rest : List Token} → {tree : Stmt} →
    Statement tokens tree rest → AllSpellable tokens → tree.printable unsigned ∧ AllSpellable rest
  | _, _, _, .write derived, spellable => by
      simp only [allSpellable_cons] at spellable
      obtain ⟨printableValue, spellableClose⟩ := printable_expression derived spellable.2.2
      simp only [allSpellable_cons] at spellableClose
      exact ⟨printableValue, spellableClose.2.2⟩
  | _, _, _, .read target, spellable => by
      simp only [allSpellable_cons] at spellable
      exact ⟨spellable.2.2.1, spellable.2.2.2.2.2⟩
  | _, _, _, .block derived, spellable => by
      obtain ⟨printableBody, spellableEnd⟩ :=
        printable_statements derived (allSpellable_cons.mp spellable).2
      simp only [allSpellable_cons] at spellableEnd
      exact ⟨printableBody, spellableEnd.2.2⟩
  | _, _, _, .ifThen derivedTest derivedBody _, spellable => by
      obtain ⟨printableTest, spellableThen⟩ :=
        printable_condition derivedTest (allSpellable_cons.mp spellable).2
      obtain ⟨printableBody, spellableRest⟩ :=
        printable_statement derivedBody (allSpellable_cons.mp spellableThen).2
      exact ⟨by simp [Stmt.printable, printableTest, printableBody], spellableRest⟩
  | _, _, _, .ifElse derivedTest derivedThen derivedElse, spellable => by
      obtain ⟨printableTest, spellableThen⟩ :=
        printable_condition derivedTest (allSpellable_cons.mp spellable).2
      obtain ⟨printableThen, spellableElse⟩ :=
        printable_statement derivedThen (allSpellable_cons.mp spellableThen).2
      obtain ⟨printableElse, spellableRest⟩ :=
        printable_statement derivedElse (allSpellable_cons.mp spellableElse).2
      have closed := mt (head_ne_kwElse_of_endsOpen derivedThen) (by simp)
      exact ⟨by simp [Stmt.printable, printableTest, printableThen, closed, printableElse],
        spellableRest⟩
  | _, _, _, .loop derivedTest derivedBody, spellable => by
      obtain ⟨printableTest, spellableDo⟩ :=
        printable_condition derivedTest (allSpellable_cons.mp spellable).2
      obtain ⟨printableBody, spellableRest⟩ :=
        printable_statement derivedBody (allSpellable_cons.mp spellableDo).2
      exact ⟨by simp [Stmt.printable, printableTest, printableBody], spellableRest⟩
  | _, _, _, .assign target derived, spellable => by
      simp only [allSpellable_cons] at spellable
      obtain ⟨printableValue, spellableEnd⟩ := printable_expression derived spellable.2.2
      have plain : isPlainName target := spellable.1
      exact ⟨by simp [Stmt.printable, plain, printableValue], (allSpellable_cons.mp spellableEnd).2⟩

theorem printable_statements : {tokens rest : List Token} → {trees : List Stmt} →
    Statements tokens trees rest → AllSpellable tokens →
    Stmt.printableAll unsigned trees ∧ AllSpellable rest
  | _, _, _, .none, spellable => ⟨rfl, spellable⟩
  | _, _, _, .some derivedFirst derivedOthers, spellable => by
      obtain ⟨printableFirst, spellableMiddle⟩ := printable_statement derivedFirst spellable
      obtain ⟨printableOthers, spellableRest⟩ := printable_statements derivedOthers spellableMiddle
      exact ⟨by simp [Stmt.printableAll, printableFirst, printableOthers], spellableRest⟩

end

theorem plain_names {tokens rest : List Token} {names : List String}
    (derived : Names tokens names rest) (spellable : AllSpellable tokens) :
    names.all isPlainName ∧ AllSpellable rest := by
  induction derived with
  | one name =>
      obtain ⟨spellableName, spellableRest⟩ := allSpellable_cons.mp spellable
      have plain : isPlainName name := spellableName
      exact ⟨by rw [List.all_cons, plain]; rfl, spellableRest⟩
  | more name _ ih =>
      simp only [allSpellable_cons] at spellable
      have plain : isPlainName name := spellable.1
      obtain ⟨plainOthers, spellableRest⟩ := ih spellable.2.2
      exact ⟨by rw [List.all_cons, plain, plainOthers]; rfl, spellableRest⟩

theorem plain_declarations {tokens rest : List Token} {names : List String}
    (derived : Declarations tokens names rest) (spellable : AllSpellable tokens) :
    names.all isPlainName ∧ AllSpellable rest := by
  induction derived with
  | none => exact ⟨rfl, spellable⟩
  | some derivedNames _ ih =>
      obtain ⟨plain, spellableEnd⟩ := plain_names derivedNames (allSpellable_cons.mp spellable).2
      obtain ⟨plainOthers, spellableRest⟩ := ih (allSpellable_cons.mp spellableEnd).2
      exact ⟨by rw [List.all_append, plain, plainOthers]; rfl, spellableRest⟩

theorem plain_parameters {tokens rest : List Token} {names : List String}
    (derived : Parameters tokens names rest) (spellable : AllSpellable tokens) :
    names.all isPlainName ∧ AllSpellable rest := by
  cases derived with
  | none => exact ⟨rfl, (allSpellable_cons.mp spellable).2⟩
  | some derivedNames =>
      obtain ⟨plain, spellableClose⟩ := plain_names derivedNames spellable
      exact ⟨plain, (allSpellable_cons.mp spellableClose).2⟩

theorem printable_procedures {tokens rest : List Token} {procedures : List Procedure}
    (derived : Procedures tokens procedures rest) (spellable : AllSpellable tokens) :
    procedures.all (·.printable unsigned) ∧ AllSpellable rest := by
  induction derived with
  | none => exact ⟨rfl, spellable⟩
  | some derivedFirst _ ih =>
      cases derivedFirst with
      | declare name derivedParams derivedLocals derivedBody =>
          simp only [allSpellable_cons] at spellable
          have plain : isPlainName name := spellable.2.1
          obtain ⟨plainParams, spellableEnd⟩ := plain_parameters derivedParams spellable.2.2.2
          obtain ⟨plainLocals, spellableBody⟩ :=
            plain_declarations derivedLocals (allSpellable_cons.mp spellableEnd).2
          obtain ⟨printableBody, spellableMiddle⟩ := printable_statement derivedBody spellableBody
          obtain ⟨printableOthers, spellableRest⟩ := ih spellableMiddle
          refine ⟨?_, spellableRest⟩
          rw [List.all_cons, printableOthers, Procedure.printable, plain, plainParams, plainLocals,
            printableBody]
          rfl

/-- A derived program is printable without negative numbers. -/
theorem printable_program {tokens : List Token} {program : Program}
    (derived : Grammar.Program tokens program) (spellable : AllSpellable tokens) :
    program.printable unsigned := by
  cases derived with
  | whole derivedGlobals derivedProcedures derivedBody =>
      obtain ⟨plainGlobals, spellableProcedures⟩ := plain_declarations derivedGlobals spellable
      obtain ⟨printableProcedures, spellableBody⟩ :=
        printable_procedures derivedProcedures spellableProcedures
      obtain ⟨printableBody, -⟩ := printable_statement derivedBody spellableBody
      rw [Program.printable, plainGlobals, printableProcedures, printableBody]
      rfl

section Unsigned

theorem aboveLeast_of_unsigned {value : Int32} (nonnegative : unsigned value) :
    aboveLeast value := by
  simp only [unsigned, aboveLeast, decide_eq_true_eq] at nonnegative ⊢
  exact Int32.lt_of_lt_of_le (by decide) nonnegative

mutual

theorem Expr.of_unsigned (tree : Expr) (printable : tree.printable unsigned) :
    tree.printable aboveLeast ∧ tree.norm = tree := by
  cases tree with
  | num value =>
      have nonnegative : ¬value < 0 := by
        simpa [Expr.printable, unsigned] using printable
      exact ⟨aboveLeast_of_unsigned printable, by rw [Expr.norm, if_neg nonnegative]⟩
  | var name => exact ⟨printable, by rw [Expr.norm]⟩
  | binary operator left right =>
      rw [Expr.printable, Bool.and_eq_true] at printable
      obtain ⟨printableLeft, normLeft⟩ := Expr.of_unsigned left printable.1
      obtain ⟨printableRight, normRight⟩ := Expr.of_unsigned right printable.2
      rw [Expr.printable, printableLeft, printableRight, Expr.norm, normLeft, normRight]
      exact ⟨rfl, rfl⟩
  | compare relation left right => cases printable
  | call name args =>
      rw [Expr.printable, Bool.and_eq_true] at printable
      obtain ⟨printableArgs, normArgs⟩ := Expr.of_unsigned_all args printable.2
      rw [Expr.printable, printable.1, printableArgs, Expr.norm, normArgs]
      exact ⟨rfl, rfl⟩

theorem Expr.of_unsigned_all (trees : List Expr) (printable : Expr.printableAll unsigned trees) :
    Expr.printableAll aboveLeast trees ∧ Expr.normAll trees = trees := by
  cases trees with
  | nil => exact ⟨rfl, rfl⟩
  | cons first others =>
      rw [Expr.printableAll, Bool.and_eq_true] at printable
      obtain ⟨printableFirst, normFirst⟩ := Expr.of_unsigned first printable.1
      obtain ⟨printableOthers, normOthers⟩ := Expr.of_unsigned_all others printable.2
      rw [Expr.printableAll, printableFirst, printableOthers, Expr.normAll, normFirst, normOthers]
      exact ⟨rfl, rfl⟩

end

theorem Condition.of_unsigned {test : Condition} (printable : test.printable unsigned) :
    test.printable aboveLeast ∧ test.norm = test := by
  rw [Condition.printable, Bool.and_eq_true] at printable
  obtain ⟨printableLeft, normLeft⟩ := Expr.of_unsigned test.left printable.1
  obtain ⟨printableRight, normRight⟩ := Expr.of_unsigned test.right printable.2
  rw [Condition.printable, printableLeft, printableRight, Condition.norm, normLeft, normRight]
  exact ⟨rfl, rfl⟩

mutual

theorem Stmt.of_unsigned (tree : Stmt) (printable : tree.printable unsigned) :
    tree.printable aboveLeast ∧ tree.norm = tree := by
  cases tree with
  | assign target value =>
      rw [Stmt.printable, Bool.and_eq_true] at printable
      obtain ⟨printableValue, normValue⟩ := Expr.of_unsigned value printable.2
      rw [Stmt.printable, printable.1, printableValue, Stmt.norm, normValue]
      exact ⟨rfl, rfl⟩
  | block body =>
      obtain ⟨printableBody, normBody⟩ := Stmt.of_unsigned_all body printable
      exact ⟨printableBody, by rw [Stmt.norm, normBody]⟩
  | ifThen test body =>
      rw [Stmt.printable, Bool.and_eq_true] at printable
      obtain ⟨printableTest, normTest⟩ := Condition.of_unsigned printable.1
      obtain ⟨printableBody, normBody⟩ := Stmt.of_unsigned body printable.2
      rw [Stmt.printable, printableTest, printableBody, Stmt.norm, normTest, normBody]
      exact ⟨rfl, rfl⟩
  | ifElse test thenBranch elseBranch =>
      simp only [Stmt.printable, Bool.and_eq_true] at printable
      obtain ⟨⟨⟨printableTest, printableThen⟩, closed⟩, printableElse⟩ := printable
      obtain ⟨printableTest, normTest⟩ := Condition.of_unsigned printableTest
      obtain ⟨printableThen, normThen⟩ := Stmt.of_unsigned thenBranch printableThen
      obtain ⟨printableElse, normElse⟩ := Stmt.of_unsigned elseBranch printableElse
      rw [Stmt.printable, printableTest, printableThen, closed, printableElse, Stmt.norm, normTest,
        normThen, normElse]
      exact ⟨rfl, rfl⟩
  | loop test body =>
      rw [Stmt.printable, Bool.and_eq_true] at printable
      obtain ⟨printableTest, normTest⟩ := Condition.of_unsigned printable.1
      obtain ⟨printableBody, normBody⟩ := Stmt.of_unsigned body printable.2
      rw [Stmt.printable, printableTest, printableBody, Stmt.norm, normTest, normBody]
      exact ⟨rfl, rfl⟩
  | read target => exact ⟨printable, by rw [Stmt.norm]⟩
  | write value =>
      obtain ⟨printableValue, normValue⟩ := Expr.of_unsigned value printable
      exact ⟨printableValue, by rw [Stmt.norm, normValue]⟩

theorem Stmt.of_unsigned_all (trees : List Stmt) (printable : Stmt.printableAll unsigned trees) :
    Stmt.printableAll aboveLeast trees ∧ Stmt.normAll trees = trees := by
  cases trees with
  | nil => exact ⟨rfl, rfl⟩
  | cons first others =>
      rw [Stmt.printableAll, Bool.and_eq_true] at printable
      obtain ⟨printableFirst, normFirst⟩ := Stmt.of_unsigned first printable.1
      obtain ⟨printableOthers, normOthers⟩ := Stmt.of_unsigned_all others printable.2
      rw [Stmt.printableAll, printableFirst, printableOthers, Stmt.normAll, normFirst, normOthers]
      exact ⟨rfl, rfl⟩

end

theorem Procedure.of_unsigned {procedure : Procedure} (printable : procedure.printable unsigned) :
    procedure.printable aboveLeast ∧ procedure.norm = procedure := by
  rw [Procedure.printable, Bool.and_eq_true] at printable
  obtain ⟨printableBody, normBody⟩ := Stmt.of_unsigned procedure.body printable.2
  rw [Procedure.printable, printable.1, printableBody, Procedure.norm, normBody]
  exact ⟨rfl, rfl⟩

/-- A program without negative numbers has no number that needs a sign. -/
theorem Program.of_unsigned {program : Program} (printable : program.printable unsigned) :
    program.printable aboveLeast ∧ program.norm = program := by
  simp only [Program.printable, Bool.and_eq_true, List.all_eq_true] at printable
  obtain ⟨⟨plainGlobals, printableProcedures⟩, printableBody⟩ := printable
  obtain ⟨printableBody, normBody⟩ := Stmt.of_unsigned program.body printableBody
  have normProcedures : program.procedures.map Procedure.norm = program.procedures := by
    refine (List.map_congr_left fun procedure mem => ?_).trans (List.map_id _)
    exact (Procedure.of_unsigned (printableProcedures procedure mem)).2
  constructor
  · simp only [Program.printable, Bool.and_eq_true, List.all_eq_true]
    exact ⟨⟨plainGlobals, fun procedure mem =>
      (Procedure.of_unsigned (printableProcedures procedure mem)).1⟩, printableBody⟩
  · rw [Program.norm, normBody, normProcedures]

end Unsigned

theorem parse_render_of_printable {program : Program} (printable : program.printable aboveLeast) :
    parse program.render = .ok program.norm := by
  obtain ⟨lexemes, scanned, tokens_eq⟩ := scan_of_spells (spells_program printable)
  exact parse_eq_ok_iff.mpr ⟨lexemes, scanned, tokens_eq ▸ program_tokens printable⟩

/-- Parsing the text of a printable program gives the program, with negations for its negative
numbers. Every parsed program is printable and has no negative numbers, so it comes back as it
is. -/
theorem parse_render :
    (∀ program : Program, program.printable aboveLeast →
      parse program.render = .ok program.norm) ∧
    ∀ (text : String) (program : Program), parse text = .ok program →
      program.printable aboveLeast ∧ program.printable unsigned ∧
        parse program.render = .ok program := by
  refine ⟨fun program printable => parse_render_of_printable printable, ?_⟩
  intro text program parsed
  obtain ⟨lexemes, scanned, derived⟩ := parse_eq_ok_iff.mp parsed
  have nonnegative := printable_program derived (spellable_of_scan scanned)
  obtain ⟨printable, same⟩ := Program.of_unsigned nonnegative
  have reparsed := parse_render_of_printable printable
  rw [same] at reparsed
  exact ⟨printable, nonnegative, reparsed⟩

/-- A program with a negative number and an open choice inside a branch in front of an `ELSE`. -/
def signedProgram : Program where
  globals := ["a", "b"]
  procedures := [⟨"half", ["x"], ["y"], .assign "half" (.binary .div (.var "x") (.num 2))⟩]
  body :=
    .block
      [.ifElse ⟨.le, .var "a", .num (-7)⟩
        (.block [.ifThen ⟨.ne, .var "b", .num 0⟩ (.read "b")])
        (.loop ⟨.gt, .var "a", .num 1⟩
          (.ifThen ⟨.ge, .var "a", .var "b"⟩ (.write (.call "half" [.var "a"]))))]

theorem parse_render_signedProgram :
    signedProgram.printable aboveLeast ∧
    parse signedProgram.render = .ok signedProgram.norm ∧
    parse signedProgram.norm.render = .ok signedProgram.norm := by
  have parsed := parse_render.1 signedProgram (by decide)
  exact ⟨by decide, parsed, (parse_render.2 _ _ parsed).2.2⟩

end MiniPascal
