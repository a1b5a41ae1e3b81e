import MiniPascal.Proofs.Run.Change
import MiniPascal.Proofs.Run.Relation

/-!
# Two runs side by side

A pairing relates the states of two runs. If the single steps that a tree asks for and the calls
that it makes end in the same way from paired states, and leave paired states, then so does
evaluating or executing the tree, whether this gives a result or stops early.
-/

namespace MiniPascal

open Interpreter (Exec Invoke readVariable assign declare readInteger writeLine callee
  evaluateWith evaluateAllWith testWith repeatWhile executeWith executeAllWith)

/-- A relation between the states of two runs in which the same procedures are known. -/
structure Pairing where
  holds : Interpreter → Interpreter → Prop
  procedure : ∀ {first second}, holds first second → ∀ name,
    first.environment.procedure name = second.environment.procedure name

/-- Two computations end with the same value, or stop for the same reason, in paired states. -/
inductive Pairing.Ends {α : Type} (pairing : Pairing) :
    EStateM.Result Halt Interpreter α → EStateM.Result Halt Interpreter α → Prop where
  | ok {first second : Interpreter} (value : α) :
      pairing.holds first second → pairing.Ends (.ok value first) (.ok value second)
  | error {first second : Interpreter} (halt : Halt) :
      pairing.holds first second → pairing.Ends (.error halt first) (.error halt second)

/-- A computation that ends alike from paired states. -/
def Mirrors {α : Type} (pairing : Pairing) (computation : Exec α) : Prop :=
  ∀ first second, pairing.holds first second →
    pairing.Ends (computation first) (computation second)

variable {α β : Type} {pairing : Pairing} {invoke : Invoke}

theorem Mirrors.throw (halt : Halt) : Mirrors pairing (throw halt : Exec α) :=
  fun _ _ => .error halt

/-- A step that gives the same answer in paired states. -/
theorem Mirrors.attempt {step : Interpreter → Except Error α × Interpreter}
    (same : ∀ {first second}, pairing.holds first second →
      (step first).1 = (step second).1 ∧ pairing.holds (step first).2 (step second).2) :
    Mirrors pairing (Interpreter.attempt step) := by
  intro first second paired
  obtain ⟨answers, states⟩ := same paired
  rw [attempt_eq, attempt_eq]
  generalize step first = one at answers states
  generalize step second = two at answers states
  obtain ⟨answer, after⟩ := one
  obtain ⟨answer', after'⟩ := two
  subst answers
  cases answer with
  | ok value => exact .ok value states
  | error cause => exact .error _ states

theorem Mirrors.callee (name : String) (arguments : Nat) :
    Mirrors pairing (Interpreter.callee name arguments) := by
  intro first second paired
  have same := pairing.procedure paired name
  simp only [Environment.procedure] at same
  rw [callee_eq, callee_eq]
  cases known : first.environment.procedures.find? (·.name = name) with
  | none =>
      cases known' : second.environment.procedures.find? (·.name = name) with
      | none => exact .error _ paired
      | some procedure => simp [known, known'] at same
  | some procedure =>
      cases known' : second.environment.procedures.find? (·.name = name) with
      | none => simp [known, known'] at same
      | some procedure' =>
          obtain rfl : procedure = procedure' := by simpa [known, known'] using same
          by_cases few : arguments < procedure.params.length
          · simp only [few, if_true]
            exact .error _ paired
          · simp only [few, if_false]
            exact .ok procedure paired

/-- That two computations end alike from paired states, as a relation between them. -/
def Pairing.ending (pairing : Pairing) : Correspondence where
  relates computation computation' := ∀ first second, pairing.holds first second →
    pairing.Ends (computation first) (computation' second)
  pure value _ _ := .ok value
  throw := Mirrors.throw
  bind := by
    intro α β computation computation' rest rest' one two first second paired
    have ends := one first second paired
    simp only [Bind.bind, EStateM.bind]
    generalize computation first = result at ends
    generalize computation' second = result' at ends
    cases ends with
    | ok value paired => exact two value _ _ paired
    | error halt paired => exact .error halt paired
  callee := Mirrors.callee

/-- The calls of procedures end alike. -/
def MirrorsCalls (pairing : Pairing) (invoke : Invoke) : Prop :=
  ∀ procedure values, Mirrors pairing (invoke procedure values)

/-- The reads of the variables among some expressions end alike. -/
def MirrorsReads (pairing : Pairing) (parts : List Expr) : Prop :=
  ∀ name, .var name ∈ parts → Mirrors pairing (readVariable name)

/-- Evaluating an expression ends alike if its reads and calls do. -/
theorem mirrors_evaluateWith (calls : MirrorsCalls pairing invoke) (tree : Expr)
    (reads : MirrorsReads pairing tree.parts) : Mirrors pairing (evaluateWith invoke tree) :=
  pairing.ending.relates_evaluateWith calls tree reads

/-- Every single step of a statement ends alike. -/
structure MirrorsSteps (pairing : Pairing) : Prop where
  reads : ∀ name, Mirrors pairing (readVariable name)
  assigns : ∀ name value, Mirrors pairing (assign name value)
  receives : ∀ name value, Mirrors pairing (declare name value)
  input : Mirrors pairing readInteger
  output : ∀ value, Mirrors pairing (writeLine value)

/-- Executing a statement ends alike if single steps and calls do. -/
theorem mirrors_executeWith (calls : MirrorsCalls pairing invoke) (steps : MirrorsSteps pairing)
    (fuel : Nat) (tree : Stmt) : Mirrors pairing (executeWith invoke fuel tree) := by
  have steps : pairing.ending.Steps :=
    ⟨steps.reads, steps.assigns, steps.receives, steps.input, steps.output⟩
  exact pairing.ending.relates_executeWith calls steps (pairing.ending.relates_loops fuel) tree

end MiniPascal
