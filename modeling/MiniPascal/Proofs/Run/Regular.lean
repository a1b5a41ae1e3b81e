import MiniPascal.Proofs.Compile.Emission
import MiniPascal.Proofs.Run.Moments

/-!
# What holds throughout a run

At every moment of a run the known procedures are those of the program, its declared variables are
bound, and the work to be done belongs to the main statement or to the body of a procedure of the
program. While a body is executed, the names of its procedure are in the call scope; a declared
variable gets there only if it is one of them or is read from the input. So no call of a program
that can be compiled is ever refused.
-/

namespace MiniPascal

open Interpreter (readInteger writeLine callee invoke evaluateAllWith)

variable {program : Program} {owner : Option Procedure} {environment : Environment}
variable {name : String} {value : Int32}

/-! ### Globals are never lost -/

/-- The procedures stay known and the globals stay bound. -/
structure Environment.Grows (before after : Environment) : Prop where
  procedures : after.procedures = before.procedures
  globals : ∀ name ∈ before.globals, name ∈ after.globals

theorem Environment.Grows.refl (environment : Environment) : environment.Grows environment where
  procedures := rfl
  globals _ bound := bound

theorem Environment.Grows.trans {first second third : Environment} (one : first.Grows second)
    (two : second.Grows third) : first.Grows third where
  procedures := two.procedures.trans one.procedures
  globals name bound := two.globals name (one.globals name bound)

theorem grows_globals (environment : Environment) (name : String) (value : Int32) :
    environment.Grows { environment with globals := environment.globals.insert name value } where
  procedures := rfl
  globals _ bound := (scope_mem_insert _ _ _ _).2 (.inr bound)

theorem grows_frame (environment : Environment) (frame : Option Scope) :
    environment.Grows { environment with frame } where
  procedures := rfl
  globals _ bound := bound

theorem grows_declare (environment : Environment) (name : String) (value : Int32) :
    environment.Grows (environment.declare name value) := by
  rw [Environment.declare]
  split
  · exact grows_frame environment _
  · exact grows_globals environment name value

theorem grows_set (environment : Environment) (name : String) (value : Int32) :
    environment.Grows (environment.set name value) := by
  rw [Environment.set]
  split
  · split
    · exact grows_frame environment _
    · split
      · exact grows_globals environment name value
      · exact grows_frame environment _
  · exact grows_globals environment name value

theorem grows_get (environment : Environment) (name : String) :
    environment.Grows (environment.get name).2 := by
  rw [Environment.get]
  split
  · exact .refl environment
  · exact grows_declare environment name 0

/-- That nothing is lost, as a change of the state. -/
def growing : Change where
  holds before after := before.environment.Grows after.environment
  refl state := .refl state.environment
  trans := .trans
  procedures grows := grows.procedures

theorem keepsSteps_growing (parts : List Expr) (assigned received : List String) :
    KeepsSteps growing parts assigned received :=
  .of_environment Environment.Grows (fun grows => grows) .refl
    (fun name _ environment => grows_get environment name)
    (fun name _ value environment => grows_set environment name value)
    (fun name _ value environment => grows_declare environment name value)

theorem keepsCalls_growing (fuel : Nat) : KeepsCalls growing (invoke fuel) := by
  apply keepsCalls_invoke
  · intro before after scope grows
    exact ((grows_frame _ _).trans grows).trans (grows_frame _ _)
  · intro procedure
    exact keepsSteps_growing _ _ _

theorem keeps_execute_growing (fuel : Nat) (tree : Stmt) :
    Keeps growing (Interpreter.execute fuel tree) :=
  keeps_executeWith (keepsCalls_growing fuel) fuel tree (keepsSteps_growing _ _ _)

/-! ### The names that are bound -/

/-- The call scope of a procedure of a program, while its body is executed; the main statement has
none. -/
inductive ScopeOf (program : Program) : Option Procedure → Option Scope → Prop where
  | main : ScopeOf program none none
  | call {procedure : Procedure} {scope : Scope}
      (owned : ∀ name, procedure.owns name = true → name ∈ scope)
      (declared : ∀ name ∈ scope, name ∈ program.globals →
        procedure.owns name = true ∨ name ∈ procedure.body.received) :
      ScopeOf program (some procedure) (some scope)

/-- What is known and bound while a body of a program is executed. -/
structure Environment.Regular (program : Program) (owner : Option Procedure)
    (environment : Environment) : Prop where
  procedures : environment.procedures = program.procedures.reverse
  declared : ∀ name ∈ program.globals, name ∈ environment.globals
  scope : ScopeOf program owner environment.frame

/-- The statement to which the work of a procedure belongs. -/
def Program.bodyOf (program : Program) : Option Procedure → Stmt
  | none => program.body
  | some procedure => procedure.body

namespace Environment.Regular

theorem grow {after : Environment} (regular : environment.Regular program owner)
    (grows : environment.Grows after) (scope : ScopeOf program owner after.frame) :
    after.Regular program owner where
  procedures := grows.procedures.trans regular.procedures
  declared name member := grows.globals name (regular.declared name member)
  scope := scope

/-- The call scope may get a name that it has, that is not declared, or that is read. -/
theorem insert {scope : Scope} (regular : environment.Regular program owner)
    (called : environment.frame = some scope)
    (allowed : name ∈ scope ∨ name ∉ program.globals ∨ name ∈ (program.bodyOf owner).received) :
    { environment with frame := some (scope.insert name value) }.Regular program owner := by
  apply regular.grow (grows_frame _ _)
  have own := regular.scope
  rw [called] at own
  cases own with
  | call owned declared =>
      constructor
      · intro other owns
        exact (scope_mem_insert _ _ _ _).2 (.inr (owned other owns))
      · intro other bound global
        cases (scope_mem_insert _ _ _ _).1 bound with
        | inr old => exact declared other old global
        | inl same =>
            subst same
            cases allowed with
            | inl old => exact declared name old global
            | inr new =>
                cases new with
                | inl undeclared => exact absurd global undeclared
                | inr received => exact .inr received

theorem insertGlobal (regular : environment.Regular program owner) :
    { environment with globals := environment.globals.insert name value }.Regular program owner :=
  regular.grow (grows_globals environment name value) regular.scope

theorem declare (regular : environment.Regular program owner)
    (allowed : name ∉ program.globals ∨ name ∈ (program.bodyOf owner).received) :
    (environment.declare name value).Regular program owner := by
  rw [Environment.declare]
  split
  · next scope called => exact regular.insert called (.inr allowed)
  · exact regular.insertGlobal

theorem set (regular : environment.Regular program owner) :
    (environment.set name value).Regular program owner := by
  rw [Environment.set]
  split
  · next scope called =>
      split
      · next bound => exact regular.insert called (.inl bound)
      · split
        · exact regular.insertGlobal
        · next unbound =>
            -- A name that is bound nowhere is not declared.
            apply regular.insert called
            exact .inr (.inl fun global => unbound (regular.declared name global))
  · exact regular.insertGlobal

theorem get (regular : environment.Regular program owner) :
    (environment.get name).2.Regular program owner := by
  rw [Environment.get]
  split
  · exact regular
  · next absent =>
      apply regular.declare
      apply Or.inl
      intro global
      exact lookup?_ne_none (regular.declared name global) absent

end Environment.Regular

/-- That an environment stays regular, as a change of the state. -/
def regularly (program : Program) (owner : Option Procedure) : Change where
  holds before after :=
    after.environment.procedures = before.environment.procedures ∧
      (before.environment.Regular program owner → after.environment.Regular program owner)
  refl _ := ⟨rfl, fun regular => regular⟩
  trans one two := ⟨two.1.trans one.1, fun regular => two.2 (one.2 regular)⟩
  procedures kept := kept.1

theorem keepsCalls_regularly (fuel : Nat) : KeepsCalls (regularly program owner) (invoke fuel) := by
  intro procedure values state known
  have grows := keepsCalls_growing fuel procedure values state known
  constructor
  · exact grows.procedures
  · intro regular
    apply regular.grow grows
    rw [frame_invoke]
    exact regular.scope

theorem keepsSteps_regularly {parts : List Expr} {assigned received : List String}
    (listed : received ⊆ (program.bodyOf owner).received) :
    KeepsSteps (regularly program owner) parts assigned received := by
  apply KeepsSteps.of_environment fun before after =>
    after.procedures = before.procedures ∧
      (before.Regular program owner → after.Regular program owner)
  · intro before after kept
    exact kept
  · intro environment
    exact ⟨rfl, fun regular => regular⟩
  · intro name _ environment
    exact ⟨(grows_get environment name).procedures, fun regular => regular.get⟩
  · intro name _ value environment
    exact ⟨(grows_set environment name value).procedures, fun regular => regular.set⟩
  · intro name member value environment
    exact ⟨(grows_declare environment name value).procedures,
      fun regular => regular.declare (.inr (listed member))⟩

/-- While a body is executed there is a call scope. -/
theorem Environment.Regular.exists_scope {procedure : Procedure}
    (regular : environment.Regular program (some procedure)) :
    ∃ scope, environment.frame = some scope ∧
      (∀ name, procedure.owns name = true → name ∈ scope) ∧
      ∀ name ∈ scope, name ∈ program.globals →
        procedure.owns name = true ∨ name ∈ procedure.body.received := by
  have own := regular.scope
  cases called : environment.frame with
  | none =>
      rw [called] at own
      cases own
  | some scope =>
      rw [called] at own
      cases own with
      | call owned declared => exact ⟨scope, rfl, owned, declared⟩

/-! ### The moments of a run -/

/-- A moment of a run of a program: its work belongs to a body of the program, and the names are as
they must be there. -/
structure Moment.Regular (program : Program) (moment : Moment) : Prop where
  owner : ∀ procedure, moment.owner = some procedure → procedure ∈ program.procedures
  expressions : moment.task.expressions ⊆ (program.bodyOf moment.owner).expressions
  received : moment.task.received ⊆ (program.bodyOf moment.owner).received
  environment : moment.state.environment.Regular program moment.owner

/-- A call starts in the scope of its procedure. -/
theorem Environment.Regular.enter {procedure : Procedure} {values : List Int32}
    (regular : environment.Regular program owner)
    (enough : procedure.params.length ≤ values.length) :
    (environment.enter (procedure.frame values)).2.Regular program (some procedure) where
  procedures := regular.procedures
  declared := regular.declared
  scope := .call (fun _ owns => (mem_frame enough).2 owns)
    (fun _ bound _ => .inl ((mem_frame enough).1 bound))

/-- Every moment to which one of a run leads is one of the run. -/
theorem Moment.Regular.leads {moment next : Moment} (regular : moment.Regular program)
    (leads : Leads moment next) : next.Regular program := by
  cases leads with
  | within step =>
      have part := step.part
      have kept := step.keeps (keepsCalls_regularly _) (keepsSteps_regularly regular.received)
      constructor
      · exact regular.owner
      · exact List.Subset.trans part.expressions regular.expressions
      · exact List.Subset.trans part.received regular.received
      · exact kept.2 regular.environment
  | @call _ owner _ args _ _ _ _ found evaluated =>
      have known := callee_eq_ok found
      have steps : KeepsSteps (regularly program owner) (Expr.partsAll args) [] [] :=
        keepsSteps_regularly (List.nil_subset _)
      have kept := (keeps_evaluateAllWith (keepsCalls_regularly _) args steps.reads).ok evaluated
      constructor
      · intro procedure same
        cases same
        have listed := List.mem_of_find?_eq_some (procedure_eq_ok.1 known.2.1)
        rw [regular.environment.procedures] at listed
        exact List.mem_reverse.1 listed
      · exact List.Subset.refl _
      · exact List.Subset.refl _
      · apply Environment.Regular.enter (kept.2 regular.environment)
        rw [length_evaluateAllWith evaluated]
        exact known.2.2

theorem Moment.Regular.reaches {moment last : Moment} (regular : moment.Regular program)
    (reached : Reaches moment last) : last.Regular program := by
  induction reached with
  | refl => exact regular
  | tail _ step ih => exact ih.leads step

/-- A fresh interpreter with an input and a limit to its output. -/
def Interpreter.limited (input : Input) (capacity : Option Nat) : Interpreter :=
  { input, output := { capacity } }

/-- A run on a fresh interpreter starts with a moment of the run. -/
theorem regular_start (fuel : Nat) (program : Program) (input : Input) (capacity : Option Nat) :
    (Moment.start fuel program (.limited input capacity)).Regular program where
  owner procedure same := by cases same
  expressions := List.Subset.refl _
  received := List.Subset.refl _
  environment := {
    procedures := List.append_nil _
    declared name member := mem_bindAll.2 (.inl (by simpa using member))
    scope := .main }

/-! ### The errors of a run -/

/-- No expression of a moment is at fault in a program that can be compiled. -/
theorem Moment.Regular.sound {moment : Moment} {part : Expr} (regular : moment.Regular program)
    (fault : program.fault? = none) (listed : part ∈ moment.task.expressions) :
    part.fault? program.procedures.reverse = none := by
  apply sound_of_fault fault
  have member := regular.expressions listed
  cases owned : moment.owner with
  | none =>
      rw [owned] at member
      exact .inl member
  | some procedure =>
      rw [owned] at member
      exact .inr ⟨procedure, regular.owner procedure owned, member⟩

/-- A call is refused for the fault that it has when it is compiled. -/
theorem fault?_of_refused {args : List Expr} {state after : Interpreter} {cause : Error}
    (refused : callee name args.length state = .error (.error cause) after) :
    (Expr.call name args).fault? state.environment.procedures = some cause := by
  rw [callee_eq] at refused
  cases known : state.environment.procedures.find? (·.name = name) with
  | none =>
      simp only [known] at refused
      cases refused
      simp only [Expr.fault?, known]
  | some procedure =>
      simp only [known] at refused
      by_cases few : args.length < procedure.params.length
      · rw [if_pos few] at refused
        cases refused
        simp only [Expr.fault?, known, if_pos few]
      · rw [if_neg few] at refused
        cases refused

/-- An operator has no value only when it divides by zero. -/
theorem apply_eq_error {operator : Operator} {left right : Int32} {cause : Error}
    (refused : operator.apply left right = .error cause) :
    ∃ operation, cause = .byZero operation := by
  cases operator with
  | add | sub | mul => cases refused
  | div | mod =>
      rw [Operator.apply] at refused
      split at refused
      · cases refused
        exact ⟨_, rfl⟩
      · cases refused

/-- What goes wrong with a line of input. -/
theorem parseLine_eq_error {line : List UInt8} {cause : Error}
    (refused : Input.parseLine line = .error cause) :
    (∃ message, cause = .input message) ∨ ∃ message, cause = .io message := by
  simp only [Input.parseLine] at refused
  split at refused
  · cases refused
    exact .inr ⟨_, rfl⟩
  · split at refused
    · cases refused
    · cases refused
      exact .inl ⟨_, rfl⟩

theorem readInteger_eq_error {state after : Interpreter} {cause : Error}
    (refused : readInteger state = .error (.error cause) after) :
    (∃ message, cause = .input message) ∨ ∃ message, cause = .io message := by
  rw [readInteger_eq, Input.readInteger] at refused
  by_cases ended : state.input = []
  · rw [if_pos ended] at refused
    cases refused
    exact .inl ⟨_, rfl⟩
  · rw [if_neg ended] at refused
    cases parsed : Input.parseLine state.input.splitLine.1 with
    | ok value =>
        rw [parsed] at refused
        cases refused
    | error cause' =>
        rw [parsed] at refused
        cases refused
        exact parseLine_eq_error parsed

/-- What goes wrong with the output. -/
theorem write_eq_error {output after : Output} {text : String} {cause : Error}
    (refused : output.write text = (.error cause, after)) : ∃ message, cause = .io message := by
  simp only [Output.write] at refused
  split at refused
  · cases refused
  · split at refused
    · cases refused
    · cases refused
      exact ⟨_, rfl⟩

theorem writeLine_eq_error {state after : Interpreter} {cause : Error}
    (refused : writeLine value state = .error (.error cause) after) :
    ∃ message, cause = .io message := by
  rw [writeLine, attempt_eq] at refused
  rcases written : state.output.write (Decimal.render value ++ "\n") with ⟨answer, output⟩
  cases answer with
  | ok _ =>
      simp only [written] at refused
      cases refused
  | error cause' =>
      simp only [written] at refused
      cases refused
      exact write_eq_error written

/-- In a program that can be compiled no call is at fault, so that a step fails for another
reason. -/
theorem Moment.Fails.cause {moment : Moment} {cause : Error} (fails : moment.Fails cause)
    (regular : moment.Regular program) (fault : program.fault? = none) :
    (∃ operation, cause = .byZero operation) ∨ (∃ message, cause = .input message) ∨
      ∃ message, cause = .io message := by
  cases fails with
  | call refused =>
      have faulty := fault?_of_refused refused
      rw [regular.environment.procedures, regular.sound fault List.mem_cons_self] at faulty
      cases faulty
  | operate _ _ refused => exact .inl (apply_eq_error refused)
  | read refused => exact .inr (readInteger_eq_error refused)
  | write _ refused => exact .inr (.inr (writeLine_eq_error refused))

/-- A run of a program that can be compiled stops only when it divides by zero, when a line of input
is missing or holds no value, or when its streams fail: no call is refused, however deep. -/
theorem run_error_of_compiled {program : Program} {text : String}
    (compiled : compile program = .ok text) {fuel : Nat} {input : Input} {capacity : Option Nat}
    {cause : Error} {state : Interpreter}
    (stopped : Interpreter.run fuel program (.limited input capacity) =
      .error (.error cause) state) :
    (∃ operation, cause = .byZero operation) ∨ (∃ message, cause = .input message) ∨
      ∃ message, cause = .io message := by
  obtain ⟨last, reached, fails⟩ := exists_fails_of_run rfl stopped
  have regular := (regular_start fuel program input capacity).reaches reached
  exact fails.cause regular (compile_eq_ok.1 compiled).1

/-- A procedure that calls itself down to zero and then another one, which divides by zero. -/
def countdownProgram : Program where
  globals := []
  procedures := [
    { name := "part", params := ["n"], locals := [],
      body := .assign "part" (.binary .div (.num 100) (.var "n")) },
    { name := "down", params := ["n"], locals := [],
      body := .ifElse ⟨.eq, .var "n", .num 0⟩ (.assign "down" (.call "part" [.var "n"]))
        (.assign "down" (.call "down" [.binary .sub (.var "n") (.num 1)])) }]
  body := .block [.read "n", .write (.call "down" [.var "n"])]

theorem run_error_of_compiled_countdownProgram :
    compile countdownProgram = .ok (Line.renderAll (linesOf countdownProgram)) ∧
      ∃ state, Interpreter.run 5 countdownProgram (.limited [50, 10] (some 8)) =
          .error (.error (.byZero "division")) state ∧
        ((∃ operation, Error.byZero "division" = .byZero operation) ∨
          (∃ message, Error.byZero "division" = .input message) ∨
          ∃ message, Error.byZero "division" = .io message) := by
  have compiled := compile_eq_ok.2 ⟨(rfl : countdownProgram.fault? = none), rfl⟩
  have fails : failure? (Interpreter.run 5 countdownProgram (.limited [50, 10] (some 8))) =
      some (.byZero "division") := by
    decide +kernel
  obtain ⟨state, stopped⟩ := failure?_eq_some.1 fails
  exact ⟨compiled, state, stopped, run_error_of_compiled compiled stopped⟩

end MiniPascal
