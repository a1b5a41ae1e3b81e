import MiniPascal.Proofs.Run.Basic
import MiniPascal.Proofs.Tree.Names

/-!
# What a computation can change

A change relates the state in front of a computation to the state behind it. If the single steps
that a tree asks for and the calls that it makes keep a change, then evaluating or executing the
tree keeps it too, whether this gives a result or stops early.
-/

namespace MiniPascal

open Interpreter (Exec Invoke readVariable assign declare readInteger writeLine callee
  evaluateWith evaluateAllWith testWith repeatWhile executeWith executeAllWith)

/-- The state that a computation leaves, however it ends. -/
def stateAfter {α : Type} : EStateM.Result Halt Interpreter α → Interpreter
  | .ok _ state => state
  | .error _ state => state

/-- A relation between the states in front of and behind computations that run one after another. No
computation here makes a procedure known. -/
structure Change where
  holds : Interpreter → Interpreter → Prop
  refl : ∀ state, holds state state
  trans : ∀ {first second third}, holds first second → holds second third → holds first third
  procedures : ∀ {before after}, holds before after →
    after.environment.procedures = before.environment.procedures

/-- A computation that keeps a change. -/
def Keeps {α : Type} (change : Change) (computation : Exec α) : Prop :=
  ∀ state, change.holds state (stateAfter (computation state))

variable {α β : Type} {change : Change} {invoke : Invoke}

/-- One computation after another, from one state. -/
theorem Change.bind {first : Exec α} {second : α → Exec β} {state : Interpreter}
    (one : change.holds state (stateAfter (first state)))
    (two : ∀ value after, first state = .ok value after →
      change.holds after (stateAfter (second value after))) :
    change.holds state (stateAfter ((first >>= second) state)) := by
  simp only [Bind.bind, EStateM.bind]
  cases result : first state with
  | ok value after =>
      rw [result] at one
      exact change.trans one (two value after result)
  | error halt after =>
      rw [result] at one
      exact one

theorem Keeps.bind {first : Exec α} {second : α → Exec β} (one : Keeps change first)
    (two : ∀ value, Keeps change (second value)) : Keeps change (first >>= second) := by
  intro state
  apply Change.bind (one state)
  intro value after _
  exact two value after

/-- From behind the first of two computations to behind the second, which may not be reached. -/
theorem Keeps.onward {first : Exec α} {second : α → Exec β}
    (keeps : ∀ value, Keeps change (second value)) (state : Interpreter) :
    change.holds (stateAfter (first state)) (stateAfter ((first >>= second) state)) := by
  simp only [Bind.bind, EStateM.bind]
  cases first state with
  | ok value after => exact keeps value after
  | error halt after => exact change.refl after

/-- Two operands one after the other, and what is done with their values. -/
theorem Keeps.operands {left right : Exec Int32} {rest : Int32 → Int32 → Exec α}
    (one : Keeps change left) (two : Keeps change right)
    (last : ∀ first second, Keeps change (rest first second)) :
    Keeps change (do
      let first ← left
      let second ← right
      rest first second) :=
  Keeps.bind one fun first => Keeps.bind two (last first)

/-- What holds behind a computation that gives a result. -/
theorem Keeps.ok {computation : Exec α} {state after : Interpreter} {value : α}
    (keeps : Keeps change computation) (result : computation state = .ok value after) :
    change.holds state after := by
  have kept := keeps state
  rw [result] at kept
  exact kept

theorem Keeps.pure (value : α) : Keeps change (Pure.pure value) :=
  change.refl

theorem Keeps.throw (halt : Halt) : Keeps change (throw halt : Exec α) :=
  change.refl

theorem Keeps.ofExcept (answer : Except Error α) :
    Keeps change (Interpreter.ofExcept answer) := by
  cases answer with
  | ok value => exact Keeps.pure value
  | error cause => exact Keeps.throw _

theorem Keeps.callee (name : String) (arguments : Nat) :
    Keeps change (Interpreter.callee name arguments) := by
  intro state
  have unchanged : stateAfter (Interpreter.callee name arguments state) = state := by
    rw [callee_eq]
    split
    · rfl
    · split <;> rfl
  rw [unchanged]
  exact change.refl state

/-- A call that is not refused: it means the procedure known under its name, and no parameter goes
without a value. -/
structure Environment.Accepts (environment : Environment) (procedure : Procedure)
    (values : List Int32) : Prop where
  known : environment.procedure procedure.name = .ok procedure
  enough : procedure.params.length ≤ values.length

/-- The calls that are not refused keep a change. -/
def KeepsCalls (change : Change) (invoke : Invoke) : Prop :=
  ∀ procedure values state, state.environment.Accepts procedure values →
    change.holds state (stateAfter (invoke procedure values state))

/-- The reads of the variables among some expressions keep a change. -/
def KeepsReads (change : Change) (parts : List Expr) : Prop :=
  ∀ name, .var name ∈ parts → Keeps change (readVariable name)

theorem KeepsReads.mono {parts fewer : List Expr} (reads : KeepsReads change parts)
    (subset : fewer ⊆ parts) : KeepsReads change fewer :=
  fun name member => reads name (subset member)

/-- As many values as expressions. -/
theorem length_evaluateAllWith {trees : List Expr} {values : List Int32}
    {state after : Interpreter}
    (evaluated : evaluateAllWith invoke trees state = .ok values after) :
    values.length = trees.length := by
  induction trees generalizing values state with
  | nil =>
      rw [evaluateAllWith] at evaluated
      cases evaluated
      rfl
  | cons tree trees ih =>
      rw [evaluateAllWith] at evaluated
      obtain ⟨value, middle, _, evaluated⟩ := bind_eq_ok evaluated
      obtain ⟨rest, last, more, evaluated⟩ := bind_eq_ok evaluated
      cases evaluated
      rw [List.length_cons, List.length_cons, ih more]

mutual

/-- Evaluating an expression keeps what its reads and calls keep. -/
theorem keeps_evaluateWith (calls : KeepsCalls change invoke) (tree : Expr)
    (reads : KeepsReads change tree.parts) : Keeps change (evaluateWith invoke tree) := by
  cases tree with
  | num value =>
      rw [evaluateWith]
      exact Keeps.pure value
  | var name =>
      rw [evaluateWith]
      exact reads name List.mem_cons_self
  | binary operator left right =>
      have inner := reads.mono (List.subset_cons_self _ _)
      rw [evaluateWith]
      apply Keeps.operands
      · exact keeps_evaluateWith calls left (inner.mono (List.subset_append_left _ _))
      · exact keeps_evaluateWith calls right (inner.mono (List.subset_append_right _ _))
      · intro first second
        exact Keeps.ofExcept _
  | compare relation left right =>
      have inner := reads.mono (List.subset_cons_self _ _)
      rw [evaluateWith]
      apply Keeps.operands
      · exact keeps_evaluateWith calls left (inner.mono (List.subset_append_left _ _))
      · exact keeps_evaluateWith calls right (inner.mono (List.subset_append_right _ _))
      · intro first second
        exact Keeps.pure _
  | call name args =>
      have inner := keeps_evaluateAllWith calls args (reads.mono (List.subset_cons_self _ _))
      intro state
      rw [evaluateWith]
      apply Change.bind (Keeps.callee name args.length state)
      intro procedure after found
      obtain ⟨rfl, known, enough⟩ := callee_eq_ok found
      apply Change.bind (inner after)
      intro values later evaluated
      apply calls
      constructor
      · -- The procedure that was found is still known when its arguments have been evaluated.
        rw [Environment.procedure, change.procedures (inner.ok evaluated)]
        exact known
      · rw [length_evaluateAllWith evaluated]
        exact enough

/-- Evaluating expressions keeps what their reads and calls keep. -/
theorem keeps_evaluateAllWith (calls : KeepsCalls change invoke) (trees : List Expr)
    (reads : KeepsReads change (Expr.partsAll trees)) :
    Keeps change (evaluateAllWith invoke trees) := by
  cases trees with
  | nil =>
      rw [evaluateAllWith]
      exact Keeps.pure []
  | cons first rest =>
      rw [evaluateAllWith]
      apply Keeps.bind
      · exact keeps_evaluateWith calls first (reads.mono (List.subset_append_left _ _))
      · intro value
        apply Keeps.bind
        · exact keeps_evaluateAllWith calls rest (reads.mono (List.subset_append_right _ _))
        · intro values
          exact Keeps.pure _

end

theorem keeps_testWith (calls : KeepsCalls change invoke) (test : Condition)
    (reads : KeepsReads change test.parts) : Keeps change (testWith invoke test) := by
  rw [testWith]
  apply Keeps.operands
  · exact keeps_evaluateWith calls test.left (reads.mono (List.subset_append_left _ _))
  · exact keeps_evaluateWith calls test.right (reads.mono (List.subset_append_right _ _))
  · intro left right
    exact Keeps.pure _

/-- The steps that a statement with these expressions and targets asks for keep a change. -/
structure KeepsSteps (change : Change) (parts : List Expr) (assigned received : List String) :
    Prop where
  reads : KeepsReads change parts
  assigns : ∀ name ∈ assigned, ∀ value, Keeps change (assign name value)
  receives : ∀ name ∈ received, ∀ value, Keeps change (declare name value)
  input : Keeps change readInteger
  output : ∀ value, Keeps change (writeLine value)

theorem KeepsSteps.mono {parts parts' : List Expr}
    {assigned assigned' received received' : List String}
    (steps : KeepsSteps change parts assigned received) (fewer : parts' ⊆ parts)
    (fewerAssigned : assigned' ⊆ assigned) (fewerReceived : received' ⊆ received) :
    KeepsSteps change parts' assigned' received' where
  reads := steps.reads.mono fewer
  assigns name member := steps.assigns name (fewerAssigned member)
  receives name member := steps.receives name (fewerReceived member)
  input := steps.input
  output := steps.output

/-- Reading a line leaves the names as they are. -/
theorem environment_readInteger (state : Interpreter) :
    (stateAfter (readInteger state)).environment = state.environment := by
  rw [readInteger_eq]
  split <;> rfl

/-- Writing a line leaves the names as they are. -/
theorem environment_writeLine (value : Int32) (state : Interpreter) :
    (stateAfter (writeLine value state)).environment = state.environment := by
  rw [writeLine, attempt_eq]
  rcases state.output.write (Decimal.render value ++ "\n") with ⟨answer, output⟩
  cases answer with
  | ok _ => rfl
  | error cause => rfl

/-- A change that concerns only the names is kept by the steps if these change the names so. -/
theorem KeepsSteps.of_environment (relates : Environment → Environment → Prop)
    {parts : List Expr} {assigned received : List String}
    (holds : ∀ {before after : Interpreter}, relates before.environment after.environment →
      change.holds before after)
    (refl : ∀ environment, relates environment environment)
    (reads : ∀ name, .var name ∈ parts → ∀ environment,
      relates environment (environment.get name).2)
    (assigns : ∀ name ∈ assigned, ∀ value environment,
      relates environment (environment.set name value))
    (receives : ∀ name ∈ received, ∀ value environment,
      relates environment (environment.declare name value)) :
    KeepsSteps change parts assigned received where
  reads name member state := holds (reads name member state.environment)
  assigns name member value state := holds (assigns name member value state.environment)
  receives name member value state := holds (receives name member value state.environment)
  input state := by
    apply holds
    rw [environment_readInteger]
    exact refl state.environment
  output value state := by
    apply holds
    rw [environment_writeLine]
    exact refl state.environment

theorem keeps_repeatWhile {test : Exec Bool} {body : Exec Unit} (tests : Keeps change test)
    (runs : Keeps change body) (count : Nat) : Keeps change (repeatWhile count test body) := by
  induction count with
  | zero =>
      rw [repeatWhile]
      exact Keeps.throw _
  | succ count ih =>
      rw [repeatWhile]
      apply Keeps.bind tests
      intro holds
      cases holds with
      | true => exact Keeps.bind runs fun _ => ih
      | false => exact Keeps.pure ()

mutual

/-- Executing a statement keeps what its steps and calls keep. -/
theorem keeps_executeWith (calls : KeepsCalls change invoke) (fuel : Nat) (tree : Stmt)
    (steps : KeepsSteps change tree.expressions tree.assigned tree.received) :
    Keeps change (executeWith invoke fuel tree) := by
  cases tree with
  | assign target value =>
      rw [executeWith]
      apply Keeps.bind (keeps_evaluateWith calls value steps.reads)
      exact steps.assigns target List.mem_cons_self
  | block body =>
      rw [executeWith]
      exact keeps_executeAllWith calls fuel body steps
  | ifThen test body =>
      rw [executeWith]
      apply Keeps.bind
      · exact keeps_testWith calls test (steps.reads.mono (List.subset_append_left _ _))
      · intro holds
        cases holds with
        | true =>
            apply keeps_executeWith calls fuel body
            exact steps.mono (List.subset_append_right _ _) (List.Subset.refl _)
              (List.Subset.refl _)
        | false => exact Keeps.pure ()
  | ifElse test thenBranch elseBranch =>
      rw [executeWith]
      have front := steps.mono (List.subset_append_left _ _) (List.subset_append_left _ _)
        (List.subset_append_left _ _)
      apply Keeps.bind
      · exact keeps_testWith calls test (front.reads.mono (List.subset_append_left _ _))
      · intro holds
        cases holds with
        | true =>
            apply keeps_executeWith calls fuel thenBranch
            exact front.mono (List.subset_append_right _ _) (List.Subset.refl _)
              (List.Subset.refl _)
        | false =>
            apply keeps_executeWith calls fuel elseBranch
            exact steps.mono (List.subset_append_right _ _) (List.subset_append_right _ _)
              (List.subset_append_right _ _)
  | loop test body =>
      rw [executeWith]
      apply keeps_repeatWhile
      · exact keeps_testWith calls test (steps.reads.mono (List.subset_append_left _ _))
      · apply keeps_executeWith calls fuel body
        exact steps.mono (List.subset_append_right _ _) (List.Subset.refl _) (List.Subset.refl _)
  | read target =>
      rw [executeWith]
      exact Keeps.bind steps.input (steps.receives target List.mem_cons_self)
  | write value =>
      rw [executeWith]
      exact Keeps.bind (keeps_evaluateWith calls value steps.reads) steps.output

/-- Executing statements keeps what their steps and calls keep. -/
theorem keeps_executeAllWith (calls : KeepsCalls change invoke) (fuel : Nat) (trees : List Stmt)
    (steps : KeepsSteps change (Stmt.expressionsAll trees) (Stmt.assignedAll trees)
      (Stmt.receivedAll trees)) :
    Keeps change (executeAllWith invoke fuel trees) := by
  cases trees with
  | nil =>
      rw [executeAllWith]
      exact Keeps.pure ()
  | cons first rest =>
      rw [executeAllWith]
      apply Keeps.bind
      · apply keeps_executeWith calls fuel first
        exact steps.mono (List.subset_append_left _ _) (List.subset_append_left _ _)
          (List.subset_append_left _ _)
      · intro _
        apply keeps_executeAllWith calls fuel rest
        exact steps.mono (List.subset_append_right _ _) (List.subset_append_right _ _)
          (List.subset_append_right _ _)

end

/-- The state behind what is run in a scope of its own, with the scope of the caller. -/
theorem stateAfter_inScope (scope : Scope) (name : String) (body : Exec Unit)
    (state : Interpreter) :
    stateAfter (Interpreter.inScope scope name body state) =
      (stateAfter (body (state.entered scope))).left state.environment.frame := by
  rw [inScope_eq]
  cases body (state.entered scope) with
  | ok _ after => rfl
  | error halt after => rfl

/-- The state behind a call is that behind the body, with the scope of the caller. -/
theorem stateAfter_invoke_succ (fuel : Nat) (procedure : Procedure) (values : List Int32)
    (state : Interpreter) :
    stateAfter (Interpreter.invoke (fuel + 1) procedure values state) =
      (stateAfter (Interpreter.execute fuel procedure.body
        (state.entered (procedure.frame values)))).left state.environment.frame :=
  stateAfter_inScope _ _ _ state

/-- The scope of the caller is current again behind a call, however it ends. -/
theorem frame_invoke (fuel : Nat) (procedure : Procedure) (values : List Int32)
    (state : Interpreter) :
    (stateAfter (Interpreter.invoke fuel procedure values state)).environment.frame =
      state.environment.frame := by
  cases fuel with
  | zero => rfl
  | succ fuel =>
      rw [stateAfter_invoke_succ]
      rfl

/-- Calls keep a change that the steps of all bodies keep, if it may be carried over from the scope
of a call to the scope of the caller. -/
theorem keepsCalls_invoke
    (returns : ∀ {before after : Interpreter} {scope : Scope},
      change.holds (before.entered scope) after →
        change.holds before (after.left before.environment.frame))
    (steps : ∀ procedure : Procedure, KeepsSteps change procedure.body.expressions
      procedure.body.assigned procedure.body.received) (fuel : Nat) :
    KeepsCalls change (Interpreter.invoke fuel) := by
  induction fuel with
  | zero =>
      intro procedure values state _
      exact change.refl state
  | succ fuel ih =>
      intro procedure values state _
      rw [stateAfter_invoke_succ]
      apply returns
      exact keeps_executeWith ih fuel procedure.body (steps procedure) _

end MiniPascal
