import MiniPascal.Proofs.Run.Relation

/-!
# More fuel changes nothing

A run that ends without running out of fuel, with a result or with an error, ends in the same way
with more fuel. So the outcome of a program that ends does not depend on the fuel.
-/

namespace MiniPascal

open Interpreter (Exec Invoke)

/-- A computation that does the same as another one, unless it runs out of fuel. -/
def Approximates {α : Type} (less more : Exec α) : Prop :=
  ∀ state, (∃ after, less state = .error .outOfFuel after) ∨ more state = less state

variable {α β : Type}

theorem Approximates.refl (computation : Exec α) : Approximates computation computation :=
  fun _ => .inr rfl

theorem Approximates.outOfFuel (computation : Exec α) :
    Approximates (throw .outOfFuel) computation :=
  fun state => .inl ⟨state, rfl⟩

theorem Approximates.bind {first first' : Exec α} {second second' : α → Exec β}
    (one : Approximates first first') (two : ∀ value, Approximates (second value) (second' value)) :
    Approximates (first >>= second) (first' >>= second') := by
  intro state
  simp only [Bind.bind, EStateM.bind]
  cases one state with
  | inl ended =>
      obtain ⟨after, ended⟩ := ended
      rw [ended]
      exact .inl ⟨after, rfl⟩
  | inr same =>
      rw [same]
      cases first state with
      | ok value after => exact two value after
      | error halt after => exact .inr rfl

/-- Doing the same unless fuel runs out, as a relation between computations. -/
def approximation : Correspondence where
  relates := Approximates
  pure _ := Approximates.refl _
  throw _ := Approximates.refl _
  bind := Approximates.bind
  callee _ _ := Approximates.refl _

theorem approximates_loops {count count' : Nat} (le : count ≤ count') :
    approximation.Loops count count' := by
  intro test test' body body' tests runs
  induction count generalizing count' with
  | zero => exact Approximates.outOfFuel _
  | succ count ih =>
      obtain ⟨count', rfl⟩ := Nat.exists_eq_add_of_le' (Nat.zero_lt_of_lt le)
      apply Approximates.bind tests
      intro holds
      cases holds with
      | true => exact Approximates.bind runs fun _ => ih (Nat.le_of_succ_le_succ le)
      | false => exact Approximates.refl _

theorem approximates_executeWith {invoke invoke' : Invoke}
    (calls : approximation.Calls invoke invoke') {fuel fuel' : Nat} (le : fuel ≤ fuel')
    (tree : Stmt) :
    Approximates (Interpreter.executeWith invoke fuel tree)
      (Interpreter.executeWith invoke' fuel' tree) := by
  have steps : approximation.Steps := by
    constructor
    all_goals
      intros
      exact Approximates.refl _
  exact approximation.relates_executeWith calls steps (approximates_loops le) tree

/-- What a call does is decided by its body. -/
theorem Approximates.inScope {body body' : Exec Unit} (same : Approximates body body')
    (scope : Scope) (name : String) :
    Approximates (Interpreter.inScope scope name body) (Interpreter.inScope scope name body') := by
  intro state
  simp only [Interpreter.inScope, EStateM.run]
  cases same _ with
  | inl ended =>
      obtain ⟨after, ended⟩ := ended
      rw [ended]
      exact .inl ⟨_, rfl⟩
  | inr same => exact .inr (by rw [same])

theorem approximates_invoke {fuel fuel' : Nat} (le : fuel ≤ fuel') :
    approximation.Calls (Interpreter.invoke fuel) (Interpreter.invoke fuel') := by
  induction fuel generalizing fuel' with
  | zero =>
      intro procedure values
      exact Approximates.outOfFuel _
  | succ fuel ih =>
      obtain ⟨fuel', rfl⟩ := Nat.exists_eq_add_of_le' (Nat.zero_lt_of_lt le)
      intro procedure values
      have less := Nat.le_of_succ_le_succ le
      apply Approximates.inScope
      exact approximates_executeWith (ih less) less procedure.body

theorem approximates_run {fuel fuel' : Nat} (le : fuel ≤ fuel') (program : Program) :
    Approximates (Interpreter.run fuel program) (Interpreter.run fuel' program) := by
  apply Approximates.bind (Approximates.refl _)
  intro _
  apply Approximates.bind (Approximates.refl _)
  intro _
  exact approximates_executeWith (approximates_invoke le) le program.body

/-- Two runs of a program from one state that do not run out of fuel end in the same way. -/
theorem run_eq_of_finished {program : Program} {state : Interpreter} {fuel fuel' : Nat}
    (finished : ∀ after, Interpreter.run fuel program state ≠ .error .outOfFuel after)
    (finished' : ∀ after, Interpreter.run fuel' program state ≠ .error .outOfFuel after) :
    Interpreter.run fuel program state = Interpreter.run fuel' program state := by
  cases Nat.le_total fuel fuel' with
  | inl le =>
      cases approximates_run le program state with
      | inl ended =>
          obtain ⟨after, ended⟩ := ended
          exact absurd ended (finished after)
      | inr same => exact same.symm
  | inr le =>
      cases approximates_run le program state with
      | inl ended =>
          obtain ⟨after, ended⟩ := ended
          exact absurd ended (finished' after)
      | inr same => exact same

end MiniPascal
