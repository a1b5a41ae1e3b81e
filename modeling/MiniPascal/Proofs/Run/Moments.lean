import MiniPascal.Proofs.Run.Change
import Mathlib.Logic.Relation

/-!
# Moments of a run

A moment is a piece of work that a running program is about to do: with it come the state in which
it is done, the fuel that is left and the procedure whose body it belongs to. A moment leads to the
moments of which its work consists, in the states that the interpreter has by then, and a call leads
to the body of the procedure. The moments that are reached in this way are all there are in a run:
if the run stops with an error, then one of them is the moment at which a single step failed.
-/

namespace MiniPascal

open Interpreter (Exec readInteger writeLine callee invoke evaluate test execute evaluateWith
  evaluateAllWith testWith repeatWhile executeWith executeAllWith)

/-- A piece of work of a running program. -/
inductive Task where
  | value (tree : Expr)
  | values (trees : List Expr)
  | statement (tree : Stmt)
  /-- At most `count` rounds of a loop. -/
  | rounds (count : Nat) (test : Condition) (body : Stmt)
  /-- The write of an assignment, whose value is known. -/
  | assign (name : String) (value : Int32)
  /-- The write of a read, whose value is known. -/
  | declare (name : String) (value : Int32)

namespace Task

/-- The expressions of a piece of work. -/
def expressions : Task → List Expr
  | .value tree => tree.parts
  | .values trees => Expr.partsAll trees
  | .statement tree => tree.expressions
  | .rounds _ test body => test.parts ++ body.expressions
  | .assign _ _ => []
  | .declare _ _ => []

/-- The names that a piece of work assigns to. -/
def assigned : Task → List String
  | .statement tree => tree.assigned
  | .rounds _ _ body => body.assigned
  | .assign name _ => [name]
  | _ => []

/-- The names that a piece of work reads from the input. -/
def received : Task → List String
  | .statement tree => tree.received
  | .rounds _ _ body => body.received
  | .declare name _ => [name]
  | _ => []

end Task

/-- In one body, the work to be done in a state leads to other work to be done in another state. -/
inductive Within (fuel : Nat) : Task → Interpreter → Task → Interpreter → Prop where
  | binary {operator : Operator} {left right : Expr} {state : Interpreter} :
      Within fuel (.value (.binary operator left right)) state (.values [left, right]) state
  | compare {relation : Comparison} {left right : Expr} {state : Interpreter} :
      Within fuel (.value (.compare relation left right)) state (.values [left, right]) state
  | arguments {name : String} {args : List Expr} {procedure : Procedure} {state : Interpreter}
      (found : callee name args.length state = .ok procedure state) :
      Within fuel (.value (.call name args)) state (.values args) state
  | first {tree : Expr} {trees : List Expr} {state : Interpreter} :
      Within fuel (.values (tree :: trees)) state (.value tree) state
  | rest {tree : Expr} {trees : List Expr} {value : Int32} {state after : Interpreter}
      (evaluated : evaluate fuel tree state = .ok value after) :
      Within fuel (.values (tree :: trees)) state (.values trees) after
  | assigned {target : String} {tree : Expr} {state : Interpreter} :
      Within fuel (.statement (.assign target tree)) state (.value tree) state
  | assign {target : String} {tree : Expr} {value : Int32} {state after : Interpreter}
      (evaluated : evaluate fuel tree state = .ok value after) :
      Within fuel (.statement (.assign target tree)) state (.assign target value) after
  | blockFirst {tree : Stmt} {trees : List Stmt} {state : Interpreter} :
      Within fuel (.statement (.block (tree :: trees))) state (.statement tree) state
  | blockRest {tree : Stmt} {trees : List Stmt} {state after : Interpreter}
      (executed : execute fuel tree state = .ok () after) :
      Within fuel (.statement (.block (tree :: trees))) state (.statement (.block trees)) after
  | ifThenTest {condition : Condition} {body : Stmt} {state : Interpreter} :
      Within fuel (.statement (.ifThen condition body)) state
        (.values [condition.left, condition.right]) state
  | ifThen {condition : Condition} {body : Stmt} {state after : Interpreter}
      (held : test fuel condition state = .ok true after) :
      Within fuel (.statement (.ifThen condition body)) state (.statement body) after
  | ifElseTest {condition : Condition} {thenBranch elseBranch : Stmt} {state : Interpreter} :
      Within fuel (.statement (.ifElse condition thenBranch elseBranch)) state
        (.values [condition.left, condition.right]) state
  | thenBranch {condition : Condition} {thenBranch elseBranch : Stmt} {state after : Interpreter}
      (held : test fuel condition state = .ok true after) :
      Within fuel (.statement (.ifElse condition thenBranch elseBranch)) state
        (.statement thenBranch) after
  | elseBranch {condition : Condition} {thenBranch elseBranch : Stmt} {state after : Interpreter}
      (failed : test fuel condition state = .ok false after) :
      Within fuel (.statement (.ifElse condition thenBranch elseBranch)) state
        (.statement elseBranch) after
  | loop {condition : Condition} {body : Stmt} {state : Interpreter} :
      Within fuel (.statement (.loop condition body)) state (.rounds fuel condition body) state
  | roundTest {count : Nat} {condition : Condition} {body : Stmt} {state : Interpreter} :
      Within fuel (.rounds (count + 1) condition body) state
        (.values [condition.left, condition.right]) state
  | round {count : Nat} {condition : Condition} {body : Stmt} {state after : Interpreter}
      (held : test fuel condition state = .ok true after) :
      Within fuel (.rounds (count + 1) condition body) state (.statement body) after
  | again {count : Nat} {condition : Condition} {body : Stmt} {state after later : Interpreter}
      (held : test fuel condition state = .ok true after)
      (executed : execute fuel body after = .ok () later) :
      Within fuel (.rounds (count + 1) condition body) state (.rounds count condition body) later
  | declare {target : String} {value : Int32} {state after : Interpreter}
      (received : readInteger state = .ok value after) :
      Within fuel (.statement (.read target)) state (.declare target value) after
  | written {tree : Expr} {state : Interpreter} :
      Within fuel (.statement (.write tree)) state (.value tree) state

/-- Work that is about to be done in a run. -/
structure Moment where
  fuel : Nat
  /-- The procedure whose body the work belongs to; the main statement belongs to none. -/
  owner : Option Procedure
  task : Task
  state : Interpreter

/-- A moment leads to another one, in the same body or in that of a procedure that is called. -/
inductive Leads : Moment → Moment → Prop where
  | within {fuel : Nat} {owner : Option Procedure} {task task' : Task}
      {state state' : Interpreter} (step : Within fuel task state task' state') :
      Leads ⟨fuel, owner, task, state⟩ ⟨fuel, owner, task', state'⟩
  | call {fuel : Nat} {owner : Option Procedure} {name : String} {args : List Expr}
      {procedure : Procedure} {values : List Int32} {state after : Interpreter}
      (found : callee name args.length state = .ok procedure state)
      (evaluated : evaluateAllWith (invoke (fuel + 1)) args state = .ok values after) :
      Leads ⟨fuel + 1, owner, .value (.call name args), state⟩
        ⟨fuel, some procedure, .statement procedure.body,
          after.entered (procedure.frame values)⟩

/-- A run comes from one moment to another. -/
abbrev Reaches : Moment → Moment → Prop :=
  Relation.ReflTransGen Leads

/-- The first moment of a run from a state. -/
def Moment.start (fuel : Nat) (program : Program) (state : Interpreter) : Moment where
  fuel
  owner := none
  task := .statement program.body
  state := state.prepare program

/-! ### One step -/

/-- The expressions of a piece of work and the names that it reads from the input are among those of
another. -/
structure Task.Part (part whole : Task) : Prop where
  expressions : part.expressions ⊆ whole.expressions
  received : part.received ⊆ whole.received

theorem partsAll_pair (left right : Expr) :
    Expr.partsAll [left, right] = left.parts ++ right.parts := by
  simp [Expr.partsAll]

/-- The operands of a condition come first among the expressions of what it decides about. -/
theorem partsAll_subset_append (condition : Condition) (others : List Expr) :
    Expr.partsAll [condition.left, condition.right] ⊆ condition.parts ++ others := by
  rw [partsAll_pair]
  exact List.subset_append_left _ _

/-- The work to which a piece of work leads is part of it. -/
theorem Within.part {fuel : Nat} {task task' : Task} {state state' : Interpreter}
    (step : Within fuel task state task' state') : task'.Part task := by
  cases step with
  | binary | compare =>
      refine ⟨?_, List.nil_subset _⟩
      simp only [Task.expressions, partsAll_pair]
      exact List.subset_cons_self _ _
  | arguments => exact ⟨List.subset_cons_self _ _, List.nil_subset _⟩
  | first => exact ⟨List.subset_append_left _ _, List.nil_subset _⟩
  | rest => exact ⟨List.subset_append_right _ _, List.nil_subset _⟩
  | assigned | written => exact ⟨List.Subset.refl _, List.nil_subset _⟩
  | assign => exact ⟨List.nil_subset _, List.nil_subset _⟩
  | blockFirst => exact ⟨List.subset_append_left _ _, List.subset_append_left _ _⟩
  | blockRest => exact ⟨List.subset_append_right _ _, List.subset_append_right _ _⟩
  | ifThenTest | roundTest => exact ⟨partsAll_subset_append _ _, List.nil_subset _⟩
  | ifThen | round => exact ⟨List.subset_append_right _ _, List.Subset.refl _⟩
  | ifElseTest =>
      exact ⟨List.Subset.trans (partsAll_subset_append _ _) (List.subset_append_left _ _),
        List.nil_subset _⟩
  | thenBranch =>
      exact ⟨List.Subset.trans (List.subset_append_right _ _) (List.subset_append_left _ _),
        List.subset_append_left _ _⟩
  | elseBranch => exact ⟨List.subset_append_right _ _, List.subset_append_right _ _⟩
  | loop | again => exact ⟨List.Subset.refl _, List.Subset.refl _⟩
  | declare => exact ⟨List.nil_subset _, List.Subset.refl _⟩

/-- A step inside a body keeps what its calls and the steps of its work keep. -/
theorem Within.keeps {change : Change} {fuel : Nat} {task task' : Task}
    {state state' : Interpreter} (step : Within fuel task state task' state')
    (calls : KeepsCalls change (invoke fuel))
    (steps : KeepsSteps change task.expressions task.assigned task.received) :
    change.holds state state' := by
  cases step with
  | binary | compare | arguments | first | assigned | blockFirst | ifThenTest | ifElseTest | loop
  | roundTest | written => exact change.refl state
  | rest evaluated =>
      apply Keeps.ok _ evaluated
      exact keeps_evaluateWith calls _ (steps.reads.mono (List.subset_append_left _ _))
  | assign evaluated => exact (keeps_evaluateWith calls _ steps.reads).ok evaluated
  | blockRest executed =>
      apply Keeps.ok _ executed
      apply keeps_executeWith calls
      exact steps.mono (List.subset_append_left _ _) (List.subset_append_left _ _)
        (List.subset_append_left _ _)
  | ifThen held | round held =>
      apply Keeps.ok _ held
      exact keeps_testWith calls _ (steps.reads.mono (List.subset_append_left _ _))
  | thenBranch held | elseBranch held =>
      apply Keeps.ok _ held
      have front := steps.reads.mono (List.subset_append_left _ _)
      exact keeps_testWith calls _ (front.mono (List.subset_append_left _ _))
  | again held executed =>
      apply change.trans
      · apply Keeps.ok _ held
        exact keeps_testWith calls _ (steps.reads.mono (List.subset_append_left _ _))
      · apply Keeps.ok _ executed
        apply keeps_executeWith calls
        exact steps.mono (List.subset_append_right _ _) (List.Subset.refl _) (List.Subset.refl _)
  | declare received => exact steps.input.ok received

/-! ### Where a run fails -/

/-- A single step of the work of a moment fails: a call is refused, an operator has no value, or
nothing can be read or written. -/
inductive Moment.Fails : Moment → Error → Prop where
  | call {fuel : Nat} {owner : Option Procedure} {name : String} {args : List Expr}
      {state after : Interpreter} {cause : Error}
      (refused : callee name args.length state = .error (.error cause) after) :
      Fails ⟨fuel, owner, .value (.call name args), state⟩ cause
  | operate {fuel : Nat} {owner : Option Procedure} {operator : Operator} {left right : Expr}
      {first second : Int32} {state middle after : Interpreter} {cause : Error}
      (evaluatedLeft : evaluate fuel left state = .ok first middle)
      (evaluatedRight : evaluate fuel right middle = .ok second after)
      (refused : operator.apply first second = .error cause) :
      Fails ⟨fuel, owner, .value (.binary operator left right), state⟩ cause
  | read {fuel : Nat} {owner : Option Procedure} {target : String} {state after : Interpreter}
      {cause : Error} (refused : readInteger state = .error (.error cause) after) :
      Fails ⟨fuel, owner, .statement (.read target), state⟩ cause
  | write {fuel : Nat} {owner : Option Procedure} {tree : Expr} {value : Int32}
      {state middle after : Interpreter} {cause : Error}
      (evaluated : evaluate fuel tree state = .ok value middle)
      (refused : writeLine value middle = .error (.error cause) after) :
      Fails ⟨fuel, owner, .statement (.write tree), state⟩ cause

variable {α β : Type} {fuel : Nat} {owner : Option Procedure} {start next : Moment}

/-- If a result is an error, then from a moment the run comes to the step that failed with it. -/
def Traced (start : Moment) (result : EStateM.Result Halt Interpreter α) : Prop :=
  ∀ cause after, result = .error (.error cause) after →
    ∃ last, Reaches start last ∧ last.Fails cause

theorem Traced.ok (value : α) (after : Interpreter) : Traced start (.ok value after) := by
  intro cause later stopped
  cases stopped

theorem Traced.outOfFuel (after : Interpreter) :
    Traced start (.error .outOfFuel after : EStateM.Result Halt Interpreter α) := by
  intro cause later stopped
  cases stopped

/-- The work of a moment fails in a step of its own. -/
theorem Traced.here {result : EStateM.Result Halt Interpreter α}
    (fails : ∀ cause after, result = .error (.error cause) after → start.Fails cause) :
    Traced start result := by
  intro cause after stopped
  exact ⟨start, .refl, fails cause after stopped⟩

/-- The work of a moment fails in a moment to which it leads. -/
theorem Traced.leads {result : EStateM.Result Halt Interpreter α} (step : Leads start next)
    (traced : Traced next result) : Traced start result := by
  intro cause after stopped
  obtain ⟨last, reached, fails⟩ := traced cause after stopped
  exact ⟨last, .head step reached, fails⟩

/-- One computation after another fails in the first or in the second. -/
theorem Traced.bind {first : Exec α} {second : α → Exec β} {state : Interpreter}
    (one : Traced start (first state))
    (two : ∀ value after, first state = .ok value after → Traced start (second value after)) :
    Traced start ((first >>= second) state) := by
  simp only [Bind.bind, EStateM.bind]
  cases result : first state with
  | ok value after => exact two value after result
  | error halt after =>
      intro cause later stopped
      cases stopped
      exact one cause after result

/-- Two operands one after the other, and what is done with their values. -/
theorem Traced.operands {left right : Expr} {rest : Int32 → Int32 → Exec α} {state : Interpreter}
    (leads : Leads start ⟨fuel, owner, .values [left, right], state⟩)
    (one : ∀ state, Traced ⟨fuel, owner, .value left, state⟩ (evaluate fuel left state))
    (two : ∀ state, Traced ⟨fuel, owner, .value right, state⟩ (evaluate fuel right state))
    (last : ∀ {first second middle after}, evaluate fuel left state = .ok first middle →
      evaluate fuel right middle = .ok second after → Traced start (rest first second after)) :
    Traced start ((do
      let first ← evaluateWith (invoke fuel) left
      let second ← evaluateWith (invoke fuel) right
      rest first second) state) := by
  apply Traced.bind
  · exact .leads leads (.leads (.within .first) (one state))
  · intro first middle evaluatedLeft
    apply Traced.bind
    · apply Traced.leads leads
      apply Traced.leads (.within (.rest evaluatedLeft))
      exact .leads (.within .first) (two middle)
    · intro second after evaluatedRight
      exact last evaluatedLeft evaluatedRight

/-- Calls that are accepted fail in the body of their procedure. -/
def TracedCalls (fuel : Nat) : Prop :=
  ∀ {owner : Option Procedure} {name : String} {args : List Expr} {procedure : Procedure}
    {values : List Int32} {state after : Interpreter},
    callee name args.length state = .ok procedure state →
    evaluateAllWith (invoke fuel) args state = .ok values after →
    Traced ⟨fuel, owner, .value (.call name args), state⟩ (invoke fuel procedure values after)

mutual

theorem traced_evaluate (calls : TracedCalls fuel) (tree : Expr) (state : Interpreter) :
    Traced ⟨fuel, owner, .value tree, state⟩ (evaluate fuel tree state) := by
  cases tree with
  | num value =>
      rw [evaluate, evaluateWith]
      exact .ok value state
  | var name =>
      rw [evaluate, evaluateWith]
      exact .ok _ _
  | binary operator left right =>
      rw [evaluate, evaluateWith]
      apply Traced.operands (.within .binary) (traced_evaluate calls left)
        (traced_evaluate calls right)
      intro first second middle after evaluatedLeft evaluatedRight
      cases applied : operator.apply first second with
      | ok value => exact .ok value after
      | error cause =>
          apply Traced.here
          intro cause' later stopped
          cases stopped
          exact .operate evaluatedLeft evaluatedRight applied
  | compare relation left right =>
      rw [evaluate, evaluateWith]
      apply Traced.operands (.within .compare) (traced_evaluate calls left)
        (traced_evaluate calls right)
      intro first second middle after _ _
      exact .ok _ after
  | call name args =>
      rw [evaluate, evaluateWith]
      apply Traced.bind
      · apply Traced.here
        intro cause after refused
        exact .call refused
      · intro procedure after found
        have same := (callee_eq_ok found).1
        subst same
        apply Traced.bind
        · exact .leads (.within (.arguments found)) (traced_evaluateAll calls args after)
        · intro values later evaluated
          exact calls found evaluated

theorem traced_evaluateAll (calls : TracedCalls fuel) (trees : List Expr) (state : Interpreter) :
    Traced ⟨fuel, owner, .values trees, state⟩ (evaluateAllWith (invoke fuel) trees state) := by
  cases trees with
  | nil =>
      rw [evaluateAllWith]
      exact .ok [] state
  | cons tree trees =>
      rw [evaluateAllWith]
      apply Traced.bind
      · exact .leads (.within .first) (traced_evaluate calls tree state)
      · intro value middle evaluated
        apply Traced.bind
        · exact .leads (.within (.rest evaluated)) (traced_evaluateAll calls trees middle)
        · intro values after _
          exact .ok _ after

end

/-- A test fails in one of its operands. -/
theorem traced_test (calls : TracedCalls fuel) {condition : Condition} {state : Interpreter}
    (leads : Leads start ⟨fuel, owner, .values [condition.left, condition.right], state⟩) :
    Traced start (test fuel condition state) := by
  rw [test, testWith]
  apply Traced.operands leads (traced_evaluate calls condition.left)
    (traced_evaluate calls condition.right)
  intro left right middle after _ _
  exact .ok _ after

theorem traced_rounds (calls : TracedCalls fuel) {condition : Condition} {body : Stmt}
    (bodies : ∀ state, Traced ⟨fuel, owner, .statement body, state⟩ (execute fuel body state))
    (count : Nat) (state : Interpreter) :
    Traced ⟨fuel, owner, .rounds count condition body, state⟩
      (repeatWhile count (test fuel condition) (execute fuel body) state) := by
  induction count generalizing state with
  | zero =>
      rw [repeatWhile]
      exact .outOfFuel state
  | succ count ih =>
      rw [repeatWhile]
      apply Traced.bind (traced_test calls (.within .roundTest))
      intro holds middle tested
      cases holds with
      | true =>
          apply Traced.bind (.leads (.within (.round tested)) (bodies middle))
          intro _ after executed
          exact .leads (.within (.again tested executed)) (ih after)
      | false => exact .ok () middle

mutual

theorem traced_execute (calls : TracedCalls fuel) (tree : Stmt) (state : Interpreter) :
    Traced ⟨fuel, owner, .statement tree, state⟩ (execute fuel tree state) := by
  cases tree with
  | assign target value =>
      rw [execute, executeWith]
      apply Traced.bind (.leads (.within .assigned) (traced_evaluate calls value state))
      intro first after _
      exact .ok () _
  | block body =>
      rw [execute, executeWith]
      exact traced_executeAll calls body state
  | ifThen condition body =>
      rw [execute, executeWith]
      apply Traced.bind (traced_test calls (.within .ifThenTest))
      intro holds middle tested
      cases holds with
      | true => exact .leads (.within (.ifThen tested)) (traced_execute calls body middle)
      | false => exact .ok () middle
  | ifElse condition thenBranch elseBranch =>
      rw [execute, executeWith]
      apply Traced.bind (traced_test calls (.within .ifElseTest))
      intro holds middle tested
      cases holds with
      | true =>
          apply Traced.leads (.within (.thenBranch tested))
          exact traced_execute calls thenBranch middle
      | false =>
          apply Traced.leads (.within (.elseBranch tested))
          exact traced_execute calls elseBranch middle
  | loop condition body =>
      rw [execute, executeWith]
      apply Traced.leads (.within .loop)
      exact traced_rounds calls (traced_execute calls body) fuel state
  | read target =>
      rw [execute, executeWith]
      apply Traced.bind
      · apply Traced.here
        intro cause after refused
        exact .read refused
      · intro value after _
        exact .ok () _
  | write value =>
      rw [execute, executeWith]
      apply Traced.bind (.leads (.within .written) (traced_evaluate calls value state))
      intro first middle evaluated
      apply Traced.here
      intro cause after refused
      exact .write evaluated refused

theorem traced_executeAll (calls : TracedCalls fuel) (trees : List Stmt) (state : Interpreter) :
    Traced ⟨fuel, owner, .statement (.block trees), state⟩
      (executeAllWith (invoke fuel) fuel trees state) := by
  cases trees with
  | nil =>
      rw [executeAllWith]
      exact .ok () state
  | cons tree trees =>
      rw [executeAllWith]
      apply Traced.bind
      · exact .leads (.within .blockFirst) (traced_execute calls tree state)
      · intro _ after executed
        exact .leads (.within (.blockRest executed)) (traced_executeAll calls trees after)

end

theorem tracedCalls (fuel : Nat) : TracedCalls fuel := by
  induction fuel with
  | zero =>
      intro owner name args procedure values state after _ _
      exact .outOfFuel after
  | succ fuel ih =>
      intro owner name args procedure values state after found evaluated
      have body : Traced ⟨fuel + 1, owner, .value (.call name args), state⟩
          (execute fuel procedure.body (after.entered (procedure.frame values))) :=
        .leads (.call found evaluated) (traced_execute ih procedure.body _)
      intro cause last stopped
      rw [invoke_succ] at stopped
      cases executed : execute fuel procedure.body (after.entered (procedure.frame values)) with
      | ok _ finished =>
          rw [executed] at stopped
          cases stopped
      | error halt finished =>
          rw [executed] at stopped
          cases stopped
          exact body cause finished executed

/-- A run that stops with an error comes to the step that failed with it. -/
theorem exists_fails_of_run {program : Program} {state after : Interpreter} {cause : Error}
    (main : state.environment.frame = none)
    (stopped : Interpreter.run fuel program state = .error (.error cause) after) :
    ∃ last, Reaches (.start fuel program state) last ∧ last.Fails cause := by
  rw [run_eq fuel program main] at stopped
  exact traced_execute (tracedCalls fuel) program.body _ cause after stopped

end MiniPascal
