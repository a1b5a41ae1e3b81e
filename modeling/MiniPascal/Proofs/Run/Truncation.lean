import MiniPascal.Proofs.Run.Isolation

/-!
# Runs that are cut short

Two runs of a program that differ only in their streams go together until a stream fails in one of
them. From there on this run is over, and the other one can only write more. This gives what a
limited output does to a run, and what input does that a run does not get to read.
-/

namespace MiniPascal

open Interpreter (Exec readVariable assign declare readInteger writeLine)

/-! ### Streams -/

/-- The input and the output of a running program. -/
structure Streams where
  input : Input
  output : Output

namespace Streams

/-- Takes the value of a line of input. -/
def read (streams : Streams) : Except Error Int32 × Streams :=
  (streams.input.readInteger.1, { streams with input := streams.input.readInteger.2 })

/-- Writes a text. -/
def write (text : String) (streams : Streams) : Except Error Unit × Streams :=
  ((streams.output.write text).1, { streams with output := (streams.output.write text).2 })

/-- What has been written stays written. -/
def Extends (after before : Streams) : Prop :=
  ∃ bytes, after.output.written = before.output.written ++ bytes

theorem Extends.refl (streams : Streams) : streams.Extends streams :=
  ⟨#[], (Array.append_empty).symm⟩

theorem Extends.trans {first second third : Streams} (one : second.Extends first)
    (two : third.Extends second) : third.Extends first := by
  obtain ⟨bytes, written⟩ := one
  obtain ⟨more, later⟩ := two
  exact ⟨bytes ++ more, by rw [later, written, Array.append_assoc]⟩

theorem extends_read (streams : Streams) : streams.read.2.Extends streams :=
  Extends.refl streams

theorem extends_write (text : String) (streams : Streams) :
    (streams.write text).2.Extends streams := by
  simp only [write, Output.write]
  split
  · exact ⟨_, rfl⟩
  · split
    · exact ⟨_, rfl⟩
    · exact ⟨_, rfl⟩

end Streams

/-- The streams of an interpreter. -/
def Interpreter.streams (state : Interpreter) : Streams where
  input := state.input
  output := state.output

/-- An interpreter with other streams. -/
def Interpreter.withStreams (state : Interpreter) (streams : Streams) : Interpreter :=
  { state with input := streams.input, output := streams.output }

/-- A step on the streams of an interpreter that may fail. -/
def onStreams {α : Type} (step : Streams → Except Error α × Streams) : Exec α :=
  Interpreter.attempt fun state =>
    ((step state.streams).1, state.withStreams (step state.streams).2)

theorem onStreams_eq {α : Type} (step : Streams → Except Error α × Streams)
    (state : Interpreter) :
    onStreams step state = match step state.streams with
      | (.ok value, streams) => .ok value (state.withStreams streams)
      | (.error cause, streams) => .error (.error cause) (state.withStreams streams) := by
  rw [onStreams, attempt_eq]
  rcases step state.streams with ⟨answer, streams⟩
  cases answer with
  | ok value => rfl
  | error cause => rfl

theorem readInteger_eq_onStreams : readInteger = onStreams Streams.read := rfl

theorem writeLine_eq_onStreams (value : Int32) :
    writeLine value = onStreams (Streams.write (Decimal.render value ++ "\n")) := rfl

/-- That what has been written stays written, as a change of the state. -/
def lengthening : Change where
  holds before after := after.streams.Extends before.streams ∧
    after.environment.procedures = before.environment.procedures
  refl state := ⟨.refl state.streams, rfl⟩
  trans one two := ⟨one.1.trans two.1, two.2.trans one.2⟩
  procedures kept := kept.2

/-- A step on the streams lengthens the output if it does so for the streams alone. -/
theorem lengthens_onStreams {α : Type} {step : Streams → Except Error α × Streams}
    (lengthens : ∀ streams, (step streams).2.Extends streams) :
    Keeps lengthening (onStreams step) := by
  intro state
  have grown := lengthens state.streams
  rw [onStreams_eq]
  generalize step state.streams = result at grown
  rcases result with ⟨answer, streams⟩
  cases answer with
  | ok value => exact ⟨grown, rfl⟩
  | error cause => exact ⟨grown, rfl⟩

theorem lengthens_inScope {body : Exec Unit} (keeps : Keeps lengthening body) (scope : Scope)
    (name : String) : Keeps lengthening (Interpreter.inScope scope name body) := by
  intro state
  rw [stateAfter_inScope]
  exact keeps (state.entered scope)

/-! ### Going together until a stream fails -/

/-- The answers of the streams of two runs: both the same, or a failure that ends the first run. -/
inductive Streams.Answers {α : Type} (together : Streams → Streams → Prop)
    (stopped : Error → Streams → Streams → Prop) :
    Except Error α × Streams → Except Error α × Streams → Prop where
  | same {first second : Except Error α × Streams} :
      first.1 = second.1 → together first.2 second.2 → Answers together stopped first second
  | stopped {first second : Except Error α × Streams} {cause : Error} :
      first.1 = .error cause → stopped cause first.2 second.2 →
        Answers together stopped first second

/-- How the streams of two runs are related: while the runs go together, and when the first run is
over and the second one may have gone on. -/
structure Truncation where
  together : Streams → Streams → Prop
  stopped : Error → Streams → Streams → Prop
  written : ∀ {short long}, together short long → short.output.written = long.output.written
  onward : ∀ {cause short long later}, stopped cause short long → later.Extends long →
    stopped cause short later
  read : ∀ {short long}, together short long →
    Streams.Answers together stopped short.read long.read
  write : ∀ {short long}, together short long → ∀ text,
    Streams.Answers together stopped (short.write text) (long.write text)

namespace Truncation

variable {α : Type} {truncation : Truncation}

/-- The states of two runs that go together. -/
structure Alike (truncation : Truncation) (short long : Interpreter) : Prop where
  environment : short.environment = long.environment
  streams : truncation.together short.streams long.streams

theorem Alike.written {short long : Interpreter} (alike : truncation.Alike short long) :
    short.output.written = long.output.written :=
  truncation.written alike.streams

theorem Alike.entered {short long : Interpreter} (alike : truncation.Alike short long)
    (scope : Scope) : truncation.Alike (short.entered scope) (long.entered scope) where
  environment := by simp only [Interpreter.entered, alike.environment]
  streams := alike.streams

theorem Alike.left {short long : Interpreter} (alike : truncation.Alike short long)
    (caller : Option Scope) : truncation.Alike (short.left caller) (long.left caller) where
  environment := by simp only [Interpreter.left, alike.environment]
  streams := alike.streams

/-- Two runs end alike, or the first one is over because of its streams. -/
inductive Ends (truncation : Truncation) :
    EStateM.Result Halt Interpreter α → EStateM.Result Halt Interpreter α → Prop where
  | ok {short long : Interpreter} (value : α) :
      truncation.Alike short long → truncation.Ends (.ok value short) (.ok value long)
  | error {short long : Interpreter} (halt : Halt) :
      truncation.Alike short long → truncation.Ends (.error halt short) (.error halt long)
  | stopped {short : Interpreter} {cause : Error} (result : EStateM.Result Halt Interpreter α) :
      truncation.stopped cause short.streams (stateAfter result).streams →
        truncation.Ends (.error (.error cause) short) result

/-- The second of two computations only lengthens the output, and from states that go together both
end alike, or the first one is over. -/
structure Relates (truncation : Truncation) (computation computation' : Exec α) : Prop where
  lengthens : Keeps lengthening computation'
  ends : ∀ short long, truncation.Alike short long →
    truncation.Ends (computation short) (computation' long)

theorem Relates.bind {β : Type} {first first' : Exec α} {second second' : α → Exec β}
    (one : truncation.Relates first first')
    (two : ∀ value, truncation.Relates (second value) (second' value)) :
    truncation.Relates (first >>= second) (first' >>= second') where
  lengthens := Keeps.bind one.lengthens fun value => (two value).lengthens
  ends short long alike := by
    have ends := one.ends short long alike
    have onward : lengthening.holds (stateAfter (first' long))
        (stateAfter ((first' >>= second') long)) :=
      Keeps.onward (fun value => (two value).lengthens) long
    simp only [Bind.bind, EStateM.bind] at onward ⊢
    generalize first short = result at ends
    generalize first' long = result' at ends onward
    cases ends with
    | ok value alike => exact (two value).ends _ _ alike
    | error halt alike => exact .error halt alike
    | stopped _ cut =>
        -- The second run may go on here, but what it has written stays.
        exact .stopped _ (truncation.onward cut onward.1)

theorem Relates.callee (name : String) (arguments : Nat) :
    truncation.Relates (Interpreter.callee name arguments)
      (Interpreter.callee name arguments) where
  lengthens := Keeps.callee name arguments
  ends short long alike := by
    rw [callee_eq, callee_eq, alike.environment]
    cases long.environment.procedures.find? (·.name = name) with
    | none => exact .error _ alike
    | some procedure =>
        by_cases few : arguments < procedure.params.length
        · simp only [few, if_true]
          exact .error _ alike
        · simp only [few, if_false]
          exact .ok procedure alike

/-- Ending alike or being over, as a relation between computations. -/
def link (truncation : Truncation) : Correspondence where
  relates := truncation.Relates
  pure value := ⟨Keeps.pure value, fun _ _ => .ok value⟩
  throw halt := ⟨Keeps.throw halt, fun _ _ => .error halt⟩
  bind := Relates.bind
  callee := Relates.callee

/-- A step on the names does the same in both runs. -/
theorem relates_names {computation : Exec α} (step : Environment → α × Environment)
    (does : ∀ state, computation state =
      .ok (step state.environment).1 { state with environment := (step state.environment).2 })
    (procedures : ∀ environment, (step environment).2.procedures = environment.procedures) :
    truncation.Relates computation computation where
  lengthens state := by
    rw [does]
    exact ⟨.refl state.streams, procedures state.environment⟩
  ends short long alike := by
    rw [does, does, alike.environment]
    exact .ok _ ⟨rfl, alike.streams⟩

theorem relates_onStreams {step : Streams → Except Error α × Streams}
    (lengthens : ∀ streams, (step streams).2.Extends streams)
    (answers : ∀ {short long}, truncation.together short long →
      Streams.Answers truncation.together truncation.stopped (step short) (step long)) :
    truncation.Relates (onStreams step) (onStreams step) where
  lengthens := lengthens_onStreams lengthens
  ends short long alike := by
    have answers := answers alike.streams
    rw [onStreams_eq, onStreams_eq]
    generalize step short.streams = result at answers
    generalize step long.streams = result' at answers
    rcases result with ⟨answer, streams⟩
    rcases result' with ⟨answer', streams'⟩
    cases answers with
    | same equal together =>
        obtain rfl : answer = answer' := equal
        cases answer with
        | ok value => exact .ok value ⟨alike.environment, together⟩
        | error cause => exact .error _ ⟨alike.environment, together⟩
    | @stopped cause failed cut =>
        obtain rfl : answer = .error cause := failed
        cases answer' with
        | ok value => exact .stopped _ cut
        | error cause' => exact .stopped _ cut

theorem steps (truncation : Truncation) : truncation.link.Steps where
  reads name := relates_names (Environment.get · name) (fun _ => rfl)
    fun environment => (Environment.Balanced.get environment name).procedures
  assigns name value := relates_names (fun environment => ((), environment.set name value))
    (fun _ => rfl) fun environment => (Environment.Balanced.set environment name value).procedures
  receives name value := relates_names (fun environment => ((), environment.declare name value))
    (fun _ => rfl)
    fun environment => (Environment.Balanced.declare environment name value).procedures
  input := by
    rw [readInteger_eq_onStreams]
    exact relates_onStreams Streams.extends_read truncation.read
  output value := by
    rw [writeLine_eq_onStreams]
    exact relates_onStreams (Streams.extends_write _) fun together => truncation.write together _

/-- Bodies that are related stay so when each of them is run in a scope of its own. -/
theorem Relates.inScope {body body' : Exec Unit} (related : truncation.Relates body body')
    (scope : Scope) (name : String) :
    truncation.Relates (Interpreter.inScope scope name body)
      (Interpreter.inScope scope name body') where
  lengthens := lengthens_inScope related.lengthens scope name
  ends short long alike := by
    have ends := related.ends _ _ (alike.entered scope)
    rw [inScope_eq, inScope_eq, alike.environment]
    generalize body (short.entered scope) = result at ends
    generalize body' (long.entered scope) = result' at ends
    cases ends with
    | ok _ alike =>
        simp only [alike.environment]
        exact .ok _ (alike.left _)
    | error halt alike => exact .error halt (alike.left _)
    | stopped _ cut =>
        cases result' with
        | ok _ after => exact .stopped _ cut
        | error halt after => exact .stopped _ cut

theorem relates_execute (truncation : Truncation) (fuel : Nat) (tree : Stmt) :
    truncation.Relates (Interpreter.execute fuel tree) (Interpreter.execute fuel tree) := by
  have calls := truncation.link.relates_invoke truncation.steps
    (fun related => Relates.inScope related _ _) fuel
  exact truncation.link.relates_executeWith calls truncation.steps
    (truncation.link.relates_loops fuel) tree

/-- Two runs of a program from states that go together end alike, or the first one is over. -/
theorem ends_run (truncation : Truncation) (fuel : Nat) (program : Program)
    {short long : Interpreter} (alike : truncation.Alike short long)
    (main : long.environment.frame = none) :
    truncation.Ends (Interpreter.run fuel program short)
      (Interpreter.run fuel program long) := by
  rw [run_eq fuel program main, run_eq fuel program (alike.environment ▸ main)]
  apply (truncation.relates_execute fuel program.body).ends
  constructor
  · simp only [Interpreter.prepare, alike.environment]
  · exact alike.streams

end Truncation

/-! ### What is seen of a run -/

/-- What is seen of a run from outside: why it stopped early, if it did, the globals, whether a call
is active, and the output. -/
structure Observation where
  halt : Option Halt
  globals : String → Option Int32
  inCall : Bool
  written : Array UInt8

/-- Why a computation stopped early, if it did. -/
def halt? {α : Type} : EStateM.Result Halt Interpreter α → Option Halt
  | .ok _ _ => none
  | .error halt _ => some halt

/-- What is seen of a computation that has ended. -/
def observe {α : Type} (result : EStateM.Result Halt Interpreter α) : Observation where
  halt := halt? result
  globals := (stateAfter result).environment.global?
  inCall := (stateAfter result).environment.inCall
  written := (stateAfter result).output.written

/-- What is seen of a run of a program on a fresh interpreter. -/
def Program.observed (program : Program) (fuel : Nat) (input : Input) (capacity : Option Nat) :
    Observation :=
  observe (Interpreter.run fuel program (.limited input capacity))

/-- Of two runs the same is seen, or the first one is over because of its streams. -/
theorem Truncation.Ends.seen {α : Type} {truncation : Truncation}
    {result result' : EStateM.Result Halt Interpreter α} (ends : truncation.Ends result result') :
    (observe result = observe result' ∧
      truncation.together (stateAfter result).streams (stateAfter result').streams) ∨
    ∃ cause, halt? result = some (.error cause) ∧
      truncation.stopped cause (stateAfter result).streams (stateAfter result').streams := by
  cases ends with
  | ok value alike =>
      refine .inl ⟨?_, alike.streams⟩
      simp only [observe, halt?, stateAfter, alike.environment, alike.written]
  | error halt alike =>
      refine .inl ⟨?_, alike.streams⟩
      simp only [observe, halt?, stateAfter, alike.environment, alike.written]
  | stopped _ cut => exact .inr ⟨_, rfl, cut⟩

end MiniPascal
