import MiniPascal.Proofs.Run.Basic
import MiniPascal.Tree.Names

/-!
# Relations between computations

To evaluate or execute a tree is to put single steps and calls one after another. So a relation
between computations that sequencing respects holds between two ways to run a tree as soon as it
holds between their single steps and between their calls. The recursion over the trees is done here
once for all such relations.
-/

namespace MiniPascal

open Interpreter (Exec Invoke readVariable assign declare readInteger writeLine
  evaluateWith evaluateAllWith testWith repeatWhile executeWith executeAllWith)

/-- A relation between computations that sequencing respects. -/
structure Correspondence where
  relates : {α : Type} → Exec α → Exec α → Prop
  pure : ∀ {α : Type} (value : α), relates (Pure.pure value) (Pure.pure value)
  throw : ∀ {α : Type} (halt : Halt), relates (throw halt : Exec α) (throw halt)
  bind : ∀ {α β : Type} {first first' : Exec α} {second second' : α → Exec β},
    relates first first' → (∀ value, relates (second value) (second' value)) →
      relates (first >>= second) (first' >>= second')
  callee : ∀ (name : String) (arguments : Nat),
    relates (Interpreter.callee name arguments) (Interpreter.callee name arguments)

namespace Correspondence

variable {α : Type} (link : Correspondence) {invoke invoke' : Invoke}

theorem ofExcept (answer : Except Error α) :
    link.relates (Interpreter.ofExcept answer) (Interpreter.ofExcept answer) := by
  cases answer with
  | ok value => exact link.pure value
  | error cause => exact link.throw _

/-- Two operands one after the other, and what is done with their values. -/
theorem operands {left left' right right' : Exec Int32} {rest : Int32 → Int32 → Exec α}
    (one : link.relates left left') (two : link.relates right right')
    (last : ∀ first second, link.relates (rest first second) (rest first second)) :
    link.relates
      (do
        let first ← left
        let second ← right
        rest first second)
      (do
        let first ← left'
        let second ← right'
        rest first second) :=
  link.bind one fun first => link.bind two (last first)

/-- The calls of procedures are related. -/
def Calls (invoke invoke' : Invoke) : Prop :=
  ∀ procedure values, link.relates (invoke procedure values) (invoke' procedure values)

/-- The reads of the variables among some expressions are related. -/
def Reads (parts : List Expr) : Prop :=
  ∀ name, .var name ∈ parts → link.relates (readVariable name) (readVariable name)

variable {link} in
theorem Reads.mono {parts fewer : List Expr} (reads : link.Reads parts) (subset : fewer ⊆ parts) :
    link.Reads fewer :=
  fun name member => reads name (subset member)

mutual

/-- Two evaluations of an expression are related if its reads and calls are. -/
theorem relates_evaluateWith (calls : link.Calls invoke invoke') (tree : Expr)
    (reads : link.Reads tree.parts) :
    link.relates (evaluateWith invoke tree) (evaluateWith invoke' tree) := by
  cases tree with
  | num value =>
      rw [evaluateWith, evaluateWith]
      exact link.pure value
  | var name =>
      rw [evaluateWith, evaluateWith]
      exact reads name List.mem_cons_self
  | binary operator left right =>
      have inner := reads.mono (List.subset_cons_self _ _)
      rw [evaluateWith, evaluateWith]
      apply link.operands
      · exact relates_evaluateWith calls left (inner.mono (List.subset_append_left _ _))
      · exact relates_evaluateWith calls right (inner.mono (List.subset_append_right _ _))
      · intro first second
        exact link.ofExcept _
  | compare relation left right =>
      have inner := reads.mono (List.subset_cons_self _ _)
      rw [evaluateWith, evaluateWith]
      apply link.operands
      · exact relates_evaluateWith calls left (inner.mono (List.subset_append_left _ _))
      · exact relates_evaluateWith calls right (inner.mono (List.subset_append_right _ _))
      · intro first second
        exact link.pure _
  | call name args =>
      rw [evaluateWith, evaluateWith]
      apply link.bind (link.callee name args.length)
      intro procedure
      apply link.bind
      · exact relates_evaluateAllWith calls args (reads.mono (List.subset_cons_self _ _))
      · exact calls procedure

/-- Two evaluations of expressions are related if their reads and calls are. -/
theorem relates_evaluateAllWith (calls : link.Calls invoke invoke') (trees : List Expr)
    (reads : link.Reads (Expr.partsAll trees)) :
    link.relates (evaluateAllWith invoke trees) (evaluateAllWith invoke' trees) := by
  cases trees with
  | nil =>
      rw [evaluateAllWith, evaluateAllWith]
      exact link.pure []
  | cons first rest =>
      rw [evaluateAllWith, evaluateAllWith]
      apply link.bind
      · exact relates_evaluateWith calls first (reads.mono (List.subset_append_left _ _))
      · intro value
        apply link.bind
        · exact relates_evaluateAllWith calls rest (reads.mono (List.subset_append_right _ _))
        · intro values
          exact link.pure _

end

/-- Every single step of a statement is related to itself. -/
structure Steps : Prop where
  reads : ∀ name, link.relates (readVariable name) (readVariable name)
  assigns : ∀ name value, link.relates (assign name value) (assign name value)
  receives : ∀ name value, link.relates (declare name value) (declare name value)
  input : link.relates readInteger readInteger
  output : ∀ value, link.relates (writeLine value) (writeLine value)

theorem relates_testWith (calls : link.Calls invoke invoke') (steps : link.Steps)
    (test : Condition) : link.relates (testWith invoke test) (testWith invoke' test) := by
  rw [testWith, testWith]
  apply link.operands
  · exact link.relates_evaluateWith calls test.left fun name _ => steps.reads name
  · exact link.relates_evaluateWith calls test.right fun name _ => steps.reads name
  · intro left right
    exact link.pure _

/-- Loops with related tests and bodies are related. -/
def Loops (count count' : Nat) : Prop :=
  ∀ {test test' : Exec Bool} {body body' : Exec Unit}, link.relates test test' →
    link.relates body body' →
      link.relates (repeatWhile count test body) (repeatWhile count' test' body')

/-- Loops of as many rounds are related. -/
theorem relates_loops (count : Nat) : link.Loops count count := by
  intro test test' body body' tests runs
  induction count with
  | zero =>
      rw [repeatWhile, repeatWhile]
      exact link.throw _
  | succ count ih =>
      rw [repeatWhile, repeatWhile]
      apply link.bind tests
      intro holds
      cases holds with
      | true => exact link.bind runs fun _ => ih
      | false => exact link.pure ()

variable {fuel fuel' : Nat}

mutual

/-- Two executions of a statement are related if single steps, loops and calls are. -/
theorem relates_executeWith (calls : link.Calls invoke invoke') (steps : link.Steps)
    (repeats : link.Loops fuel fuel') (tree : Stmt) :
    link.relates (executeWith invoke fuel tree) (executeWith invoke' fuel' tree) := by
  have evaluates (value : Expr) :=
    link.relates_evaluateWith calls value fun name _ => steps.reads name
  cases tree with
  | assign target value =>
      rw [executeWith, executeWith]
      exact link.bind (evaluates value) (steps.assigns target)
  | block body =>
      rw [executeWith, executeWith]
      exact relates_executeAllWith calls steps repeats body
  | ifThen test body =>
      rw [executeWith, executeWith]
      apply link.bind (link.relates_testWith calls steps test)
      intro holds
      cases holds with
      | true => exact relates_executeWith calls steps repeats body
      | false => exact link.pure ()
  | ifElse test thenBranch elseBranch =>
      rw [executeWith, executeWith]
      apply link.bind (link.relates_testWith calls steps test)
      intro holds
      cases holds with
      | true => exact relates_executeWith calls steps repeats thenBranch
      | false => exact relates_executeWith calls steps repeats elseBranch
  | loop test body =>
      rw [executeWith, executeWith]
      apply repeats (link.relates_testWith calls steps test)
      exact relates_executeWith calls steps repeats body
  | read target =>
      rw [executeWith, executeWith]
      exact link.bind steps.input (steps.receives target)
  | write value =>
      rw [executeWith, executeWith]
      exact link.bind (evaluates value) steps.output

/-- Two executions of statements are related if single steps, loops and calls are. -/
theorem relates_executeAllWith (calls : link.Calls invoke invoke') (steps : link.Steps)
    (repeats : link.Loops fuel fuel') (trees : List Stmt) :
    link.relates (executeAllWith invoke fuel trees) (executeAllWith invoke' fuel' trees) := by
  cases trees with
  | nil =>
      rw [executeAllWith, executeAllWith]
      exact link.pure ()
  | cons first rest =>
      rw [executeAllWith, executeAllWith]
      apply link.bind (relates_executeWith calls steps repeats first)
      intro _
      exact relates_executeAllWith calls steps repeats rest

end

/-- Calls are related if running related bodies in scopes of their own is. -/
theorem relates_invoke (steps : link.Steps)
    (scopes : ∀ {scope : Scope} {name : String} {body body' : Exec Unit},
      link.relates body body' →
        link.relates (Interpreter.inScope scope name body) (Interpreter.inScope scope name body'))
    (fuel : Nat) : link.Calls (Interpreter.invoke fuel) (Interpreter.invoke fuel) := by
  induction fuel with
  | zero =>
      intro procedure values
      exact link.throw _
  | succ fuel ih =>
      intro procedure values
      exact scopes (link.relates_executeWith ih steps (link.relates_loops fuel) procedure.body)

end Correspondence

end MiniPascal
