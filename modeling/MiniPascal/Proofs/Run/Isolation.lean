import MiniPascal.Proofs.Run.Mirror
import MiniPascal.Proofs.Run.Regular

/-!
# Scopes are kept apart

An expression leaves the scope in which it is evaluated as it finds it, but for variables in it that
are bound nowhere: these are zero from then on. This holds however the evaluation ends, so that no
call is active between the requests to an interpreter. Conversely a call cannot see the scope of its
caller: an expression that reads no variable itself has the same outcome in every scope.
-/

namespace MiniPascal

open Interpreter (readVariable assign declare readInteger writeLine invoke evaluate test execute)

variable {environment : Environment} {name : String} {value : Int32}

/-! ### Calls are ended -/

/-- The call that is active stays active, and no other; while it is, no global name is new. -/
structure Environment.Balanced (before after : Environment) : Prop where
  procedures : after.procedures = before.procedures
  inCall : after.inCall = before.inCall
  globals : before.inCall = true → ∀ name, name ∈ after.globals ↔ name ∈ before.globals

namespace Environment.Balanced

theorem refl (environment : Environment) : environment.Balanced environment where
  procedures := rfl
  inCall := rfl
  globals _ _ := Iff.rfl

theorem trans {first second third : Environment} (one : first.Balanced second)
    (two : second.Balanced third) : first.Balanced third where
  procedures := two.procedures.trans one.procedures
  inCall := two.inCall.trans one.inCall
  globals called name :=
    (two.globals (one.inCall.trans called) name).trans (one.globals called name)

theorem insert {scope : Scope} (called : environment.frame = some scope) :
    environment.Balanced { environment with frame := some (scope.insert name value) } where
  procedures := rfl
  inCall := by simp [Environment.inCall, called]
  globals _ _ := Iff.rfl

theorem insertGlobal (main : environment.frame = none) :
    environment.Balanced
      { environment with globals := environment.globals.insert name value } where
  procedures := rfl
  inCall := rfl
  globals called := by simp [Environment.inCall, main] at called

theorem declare (environment : Environment) (name : String) (value : Int32) :
    environment.Balanced (environment.declare name value) := by
  rw [Environment.declare]
  split
  next called => exact insert called
  next main => exact insertGlobal main

theorem set (environment : Environment) (name : String) (value : Int32) :
    environment.Balanced (environment.set name value) := by
  rw [Environment.set]
  split
  next called =>
    split
    · exact insert called
    · split
      next bound =>
        -- The global is overwritten, so the names stay what they were.
        constructor
        · rfl
        · rfl
        · intro _ other
          rw [scope_mem_insert]
          constructor
          · rintro (rfl | old)
            · exact bound
            · exact old
          · exact .inr
      next => exact insert called
  next main => exact insertGlobal main

theorem get (environment : Environment) (name : String) :
    environment.Balanced (environment.get name).2 := by
  rw [Environment.get]
  split
  · exact refl environment
  · exact declare environment name 0

end Environment.Balanced

/-- That calls are ended, as a change of the state. -/
def balanced : Change where
  holds before after := before.environment.Balanced after.environment
  refl state := .refl state.environment
  trans := .trans
  procedures balanced := balanced.procedures

theorem keepsSteps_balanced (parts : List Expr) (assigned received : List String) :
    KeepsSteps balanced parts assigned received :=
  .of_environment Environment.Balanced (fun balanced => balanced) .refl
    (fun name _ environment => .get environment name)
    (fun name _ value environment => .set environment name value)
    (fun name _ value environment => .declare environment name value)

theorem keepsCalls_balanced (fuel : Nat) : KeepsCalls balanced (invoke fuel) := by
  apply keepsCalls_invoke
  · intro before after scope entered
    exact ⟨entered.procedures, rfl, fun _ => entered.globals rfl⟩
  · intro procedure
    exact keepsSteps_balanced _ _ _

/-! ### The scope of an expression -/

/-- A scope has kept its bindings, and the names that are new in it are zero. -/
structure Scope.Keeps (before after : Scope) (allowed : String → Prop) : Prop where
  old : ∀ (name : String) (value : Int32), before[name]? = some value → after[name]? = some value
  new : ∀ name : String, name ∈ after → name ∉ before → allowed name ∧ after[name]? = some 0

/-- What the evaluation of an expression with these parts may do to the names. -/
structure Environment.Preserves (parts : List Expr) (before after : Environment) : Prop where
  inCall : after.inCall = before.inCall
  scope : ∀ scope, before.frame = some scope → ∃ scope', after.frame = some scope' ∧
    Scope.Keeps scope scope' fun name => .var name ∈ parts ∧ name ∉ before.globals
  globals : before.inCall = true → ∀ name, name ∈ after.globals ↔ name ∈ before.globals

variable {parts : List Expr}

theorem Scope.Keeps.refl (scope : Scope) (allowed : String → Prop) :
    Scope.Keeps scope scope allowed where
  old _ _ bound := bound
  new _ bound unbound := absurd bound unbound

theorem Scope.Keeps.trans {first second third : Scope} {allowed : String → Prop}
    (one : Scope.Keeps first second allowed) (two : Scope.Keeps second third allowed) :
    Scope.Keeps first third allowed where
  old name value bound := two.old name value (one.old name value bound)
  new name bound unbound := by
    by_cases middle : name ∈ second
    · obtain ⟨permitted, zero⟩ := one.new name middle unbound
      exact ⟨permitted, two.old name 0 zero⟩
    · exact two.new name bound middle

theorem Environment.Preserves.trans {first second third : Environment}
    (one : first.Preserves parts second) (two : second.Preserves parts third) :
    first.Preserves parts third where
  inCall := two.inCall.trans one.inCall
  globals called name :=
    (two.globals (one.inCall.trans called) name).trans (one.globals called name)
  scope scope called := by
    have active : first.inCall = true := by simp [Environment.inCall, called]
    obtain ⟨scope', called', keeps⟩ := one.scope scope called
    obtain ⟨scope'', called'', keeps'⟩ := two.scope scope' called'
    simp only [one.globals active] at keeps'
    exact ⟨scope'', called'', keeps.trans keeps'⟩

/-- What ends its calls and leaves the scope as it is preserves everything. -/
theorem Environment.Balanced.preserves {before after : Environment}
    (balanced : before.Balanced after) (same : after.frame = before.frame) :
    before.Preserves parts after where
  inCall := balanced.inCall
  globals := balanced.globals
  scope scope called := ⟨scope, same.trans called, .refl scope _⟩

/-- Reading a variable binds it in the active scope if it is bound nowhere. -/
theorem preserves_get (mem : .var name ∈ parts) (environment : Environment) :
    environment.Preserves parts (environment.get name).2 := by
  have balanced := Environment.Balanced.get environment name
  refine ⟨balanced.inCall, ?_, balanced.globals⟩
  intro scope called
  cases found : environment.lookup? name with
  | some value => exact ⟨scope, by simp [Environment.get, found, called], .refl scope _⟩
  | none =>
      have unbound : scope[name]? = none ∧ name ∉ environment.globals := by
        simpa [Environment.lookup?, Environment.global?, called] using found
      refine ⟨scope.insert name 0, by simp [Environment.get, found, Environment.declare, called],
        ?_, ?_⟩
      · intro other value bound
        rw [scope_getElem?_insert]
        split
        next same =>
          rw [same, bound] at unbound
          cases unbound.1
        next => exact bound
      · intro other bound fresh
        rw [scope_mem_insert] at bound
        cases bound with
        | inl same =>
            subst same
            exact ⟨⟨mem, unbound.2⟩, by simp⟩
        | inr old => exact absurd old fresh

/-- That the scope of an expression with these parts is kept, as a change of the state. -/
def preserving (parts : List Expr) : Change where
  holds before after := before.environment.Preserves parts after.environment ∧
    after.environment.procedures = before.environment.procedures
  refl state := ⟨(Environment.Balanced.refl state.environment).preserves rfl, rfl⟩
  trans one two := ⟨one.1.trans two.1, two.2.trans one.2⟩
  procedures kept := kept.2

theorem keepsCalls_preserving (parts : List Expr) (fuel : Nat) :
    KeepsCalls (preserving parts) (invoke fuel) := by
  intro procedure values state known
  have kept := keepsCalls_balanced fuel procedure values state known
  exact ⟨kept.preserves (frame_invoke fuel procedure values state), kept.procedures⟩

theorem keeps_evaluate (fuel : Nat) (tree : Expr) :
    Keeps (preserving tree.parts) (evaluate fuel tree) := by
  apply keeps_evaluateWith (keepsCalls_preserving tree.parts fuel) tree
  intro name mem state
  exact ⟨preserves_get mem state.environment,
    (Environment.Balanced.get state.environment name).procedures⟩

/-! ### Requests to an interpreter -/

/-- What an interpreter can be asked to do. -/
inductive Request where
  | run (program : Program)
  | execute (tree : Stmt)
  | evaluate (tree : Expr)
  | test (condition : Condition)
  | register (procedure : Procedure)

/-- The state that an interpreter leaves when it has done what it was asked, or has failed. -/
def Request.after (fuel : Nat) (state : Interpreter) : Request → Interpreter
  | .run program => stateAfter (Interpreter.run fuel program state)
  | .execute tree => stateAfter (Interpreter.execute fuel tree state)
  | .evaluate tree => stateAfter (Interpreter.evaluate fuel tree state)
  | .test condition => stateAfter (Interpreter.test fuel condition state)
  | .register procedure => stateAfter (Interpreter.register procedure state)

/-- The state behind requests that come one after another, each with its fuel. -/
def Interpreter.serve (state : Interpreter) (requests : List (Nat × Request)) : Interpreter :=
  requests.foldl (fun state request => request.2.after request.1 state) state

theorem keeps_execute_balanced (fuel : Nat) (tree : Stmt) : Keeps balanced (execute fuel tree) :=
  keeps_executeWith (keepsCalls_balanced fuel) fuel tree (keepsSteps_balanced _ _ _)

/-- No call is active behind a request if none was active before it. -/
theorem Request.frame_after (fuel : Nat) (request : Request) {state : Interpreter}
    (main : state.environment.inCall = false) :
    (request.after fuel state).environment.inCall = false := by
  have reads (parts : List Expr) : KeepsReads balanced parts :=
    (keepsSteps_balanced parts [] []).reads
  cases request with
  | run program =>
      have outside : state.environment.frame = none := by simpa [Environment.inCall] using main
      rw [Request.after, run_eq fuel program outside]
      exact ((keeps_execute_balanced fuel program.body) (state.prepare program)).inCall.trans main
  | execute tree => exact ((keeps_execute_balanced fuel tree) state).inCall.trans main
  | evaluate tree =>
      have kept := keeps_evaluateWith (keepsCalls_balanced fuel) tree (reads _) state
      exact kept.inCall.trans main
  | test condition =>
      have kept := keeps_testWith (keepsCalls_balanced fuel) condition (reads _) state
      exact kept.inCall.trans main
  | register procedure => exact main

theorem inCall_serve (requests : List (Nat × Request)) {state : Interpreter}
    (main : state.environment.inCall = false) :
    (state.serve requests).environment.inCall = false := by
  induction requests generalizing state with
  | nil => exact main
  | cons request rest ih => exact ih (request.2.frame_after request.1 main)

/-- An expression leaves the scope in which it is evaluated as it finds it, apart from unbound
variables in it, which are zero afterwards; and no call is active behind any requests to a fresh
interpreter. Both hold whether or not something fails. -/
theorem evaluate_preserves_scope :
    (∀ (fuel : Nat) (tree : Expr) (state : Interpreter),
      state.environment.Preserves tree.parts
        (stateAfter (evaluate fuel tree state)).environment) ∧
    ∀ (input : Input) (capacity : Option Nat) (requests : List (Nat × Request)),
      ((Interpreter.limited input capacity).serve requests).environment.inCall = false := by
  constructor
  · intro fuel tree state
    exact (keeps_evaluate fuel tree state).1
  · intro input capacity requests
    exact inCall_serve requests rfl

/-! ### What a call can see -/

/-- Two states that agree on everything but the active scopes. -/
structure Interpreter.Alike (first second : Interpreter) : Prop where
  globals : ∀ name, first.environment.global? name = second.environment.global? name
  procedure : ∀ name, first.environment.procedure name = second.environment.procedure name
  input : first.input = second.input
  output : first.output = second.output

/-- Two states that agree also on the active scopes. -/
structure Interpreter.Twin (first second : Interpreter) : Prop extends
    Interpreter.Alike first second where
  frame : first.environment.frame = second.environment.frame

/-- Two runs that may be in different scopes. -/
def alike : Pairing where
  holds := Interpreter.Alike
  procedure same := same.procedure

/-- Two runs that are in the same scope. -/
def twin : Pairing where
  holds := Interpreter.Twin
  procedure same := same.procedure

variable {first second : Interpreter}

theorem mem_globals_iff (same : first.Alike second) (name : String) :
    name ∈ first.environment.globals ↔ name ∈ second.environment.globals := by
  have bound := same.globals name
  simp only [Environment.global?] at bound
  rw [Std.TreeMap.mem_iff_isSome_getElem?, Std.TreeMap.mem_iff_isSome_getElem?, bound]

theorem Interpreter.Alike.insertGlobal (same : first.Alike second) (frame : Option Scope)
    (name : String) (value : Int32) :
    Interpreter.Twin
      { first with environment := { first.environment with
          globals := first.environment.globals.insert name value, frame } }
      { second with environment := { second.environment with
          globals := second.environment.globals.insert name value, frame } } where
  globals other := by
    have bound := same.globals other
    simp only [Environment.global?] at bound
    simp only [Environment.global?, scope_getElem?_insert, bound]
  procedure := same.procedure
  input := same.input
  output := same.output
  frame := rfl

theorem Interpreter.Alike.withFrame (same : first.Alike second) (frame : Option Scope) :
    Interpreter.Twin
      { first with environment := { first.environment with frame } }
      { second with environment := { second.environment with frame } } where
  globals := same.globals
  procedure := same.procedure
  input := same.input
  output := same.output
  frame := rfl

theorem Interpreter.Twin.declare (same : first.Twin second) (name : String) (value : Int32) :
    Interpreter.Twin
      { first with environment := first.environment.declare name value }
      { second with environment := second.environment.declare name value } := by
  cases called : second.environment.frame with
  | some scope =>
      simp only [Environment.declare, same.frame, called]
      exact same.withFrame _
  | none =>
      simp only [Environment.declare, same.frame, called]
      exact same.insertGlobal _ name value

theorem Interpreter.Twin.set (same : first.Twin second) (name : String) (value : Int32) :
    Interpreter.Twin
      { first with environment := first.environment.set name value }
      { second with environment := second.environment.set name value } := by
  cases called : second.environment.frame with
  | some scope =>
      simp only [Environment.set, same.frame, called, mem_globals_iff same.toAlike name]
      split
      · exact same.withFrame _
      · split
        · exact same.insertGlobal _ name value
        · exact same.withFrame _
  | none =>
      simp only [Environment.set, same.frame, called]
      exact same.insertGlobal _ name value

theorem mirrors_readVariable (name : String) : Mirrors twin (readVariable name) := by
  intro first second same
  have found : first.environment.lookup? name = second.environment.lookup? name := by
    simp only [Environment.lookup?, same.frame, same.globals]
  have step (state : Interpreter) : readVariable name state =
      .ok (state.environment.get name).1
        { state with environment := (state.environment.get name).2 } := rfl
  rw [step, step]
  simp only [Environment.get, ← found]
  split
  next value _ => exact .ok value same
  next => exact .ok 0 (same.declare name 0)

theorem mirrorsSteps_twin : MirrorsSteps twin where
  reads := mirrors_readVariable
  assigns name value _ _ same := .ok () (same.set name value)
  receives name value _ _ same := .ok () (same.declare name value)
  input := by
    apply Mirrors.attempt
    intro first second same
    simp only [same.input, true_and]
    exact ⟨⟨same.globals, same.procedure, rfl, same.output⟩, same.frame⟩
  output value := by
    apply Mirrors.attempt
    intro first second same
    simp only [same.output, true_and]
    exact ⟨⟨same.globals, same.procedure, same.input, rfl⟩, same.frame⟩

/-- Two runs that end alike and in the same scope. -/
theorem Pairing.Ends.twin {α : Type} {result result' : EStateM.Result Halt Interpreter α}
    (ends : alike.Ends result result')
    (same : (stateAfter result).environment.frame = (stateAfter result').environment.frame) :
    twin.Ends result result' := by
  cases ends with
  | ok value alike => exact .ok value ⟨alike, same⟩
  | error halt alike => exact .error halt ⟨alike, same⟩

/-- A call ends alike in different scopes, since its body is run in a scope of its own. -/
theorem ends_invoke {fuel : Nat} (runs : ∀ tree, Mirrors twin (execute fuel tree))
    (procedure : Procedure) (values : List Int32) :
    Mirrors alike (invoke (fuel + 1) procedure values) := by
  intro first second same
  have body := runs procedure.body _ _ (same.withFrame (some (procedure.frame values)))
  rw [invoke_succ, invoke_succ, Interpreter.entered, Interpreter.entered]
  simp only [Environment.enter]
  generalize execute fuel procedure.body _ = result at body ⊢
  generalize execute fuel procedure.body _ = result' at body ⊢
  cases body with
  | ok _ after =>
      simp only [Environment.leave, after.frame]
      exact .ok _ ⟨after.globals, after.procedure, after.input, after.output⟩
  | error halt after =>
      exact .error halt ⟨after.globals, after.procedure, after.input, after.output⟩

theorem mirrors_execute (fuel : Nat) (tree : Stmt) : Mirrors twin (execute fuel tree) := by
  induction fuel generalizing tree with
  | zero =>
      apply mirrors_executeWith _ mirrorsSteps_twin
      intro procedure values
      exact Mirrors.throw _
  | succ fuel ih =>
      apply mirrors_executeWith _ mirrorsSteps_twin
      intro procedure values first second same
      apply (ends_invoke ih procedure values first second same.toAlike).twin
      rw [frame_invoke, frame_invoke, same.frame]

theorem mirrorsCalls_alike (fuel : Nat) : MirrorsCalls alike (invoke fuel) := by
  cases fuel with
  | zero =>
      intro procedure values
      exact Mirrors.throw _
  | succ fuel => exact ends_invoke (mirrors_execute fuel)

/-- The scope as a change of the state: it stays exactly what it was. -/
def sameScope : Change where
  holds before after := after.environment.frame = before.environment.frame ∧
    after.environment.procedures = before.environment.procedures
  refl _ := ⟨rfl, rfl⟩
  trans one two := ⟨two.1.trans one.1, two.2.trans one.2⟩
  procedures kept := kept.2

theorem keepsCalls_sameScope (fuel : Nat) : KeepsCalls sameScope (invoke fuel) := by
  intro procedure values state known
  exact ⟨frame_invoke fuel procedure values state,
    (keepsCalls_balanced fuel procedure values state known).procedures⟩

/-- An expression that reads no variable itself, whatever the procedures do that it calls, has the
same outcome in every scope, with the same globals, input and output behind it, and leaves the scope
exactly as it was. -/
theorem evaluate_alike_of_closed (fuel : Nat) (tree : Expr)
    (closed : ∀ name, .var name ∉ tree.parts) (first second : Interpreter)
    (same : first.Alike second) :
    alike.Ends (evaluate fuel tree first) (evaluate fuel tree second) ∧
      (stateAfter (evaluate fuel tree first)).environment.frame = first.environment.frame ∧
      (stateAfter (evaluate fuel tree second)).environment.frame = second.environment.frame := by
  have ends := mirrors_evaluateWith (mirrorsCalls_alike fuel) tree
    fun name mem => absurd mem (closed name)
  have keeps : Keeps sameScope (evaluate fuel tree) :=
    keeps_evaluateWith (keepsCalls_sameScope fuel) tree fun name mem => absurd mem (closed name)
  exact ⟨ends first second same, (keeps first).1, (keeps second).1⟩

/-- A procedure that reads, prints and overwrites a name which its callers may have bound. -/
def curiousProcedure : Procedure where
  name := "p"
  params := ["n"]
  locals := []
  body := .block [.assign "g" (.binary .add (.var "g") (.var "x")), .write (.var "x"), .read "x",
    .assign "p" (.binary .add (.var "x") (.var "n"))]

/-- A state in which the procedure is known, in a given scope. -/
def curiousState (frame : Option Scope) : Interpreter where
  environment := { globals := (∅ : Scope).insert "g" 1, frame, procedures := [curiousProcedure] }
  input := [53, 10]

theorem evaluate_alike_of_closed_curiousProcedure :
    (∀ name, .var name ∉ (Expr.call "p" [.num 2]).parts) ∧
    (curiousState none).Alike (curiousState (some ((∅ : Scope).insert "x" 7))) ∧
    alike.Ends (evaluate 1 (.call "p" [.num 2]) (curiousState none))
      (evaluate 1 (.call "p" [.num 2]) (curiousState (some ((∅ : Scope).insert "x" 7)))) := by
  have closed : ∀ name, .var name ∉ (Expr.call "p" [.num 2]).parts := by
    simp [Expr.parts, Expr.partsAll]
  have same : (curiousState none).Alike (curiousState (some ((∅ : Scope).insert "x" 7))) :=
    ⟨fun _ => rfl, fun _ => rfl, rfl, rfl⟩
  exact ⟨closed, same, (evaluate_alike_of_closed 1 _ closed _ _ same).1⟩

end MiniPascal
