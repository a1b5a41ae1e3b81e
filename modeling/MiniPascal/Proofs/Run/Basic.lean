import MiniPascal.Compile.Frame
import MiniPascal.Run.Interpreter

/-!
# Steps of a running program

What the single steps of an interpreter do to its state, the scope with which a call starts, and the
state in which the main statement of a program starts.
-/

namespace MiniPascal

open Interpreter (Exec)

theorem Interpreter.get_apply (state : Interpreter) :
    (get : Exec Interpreter) state = .ok state state := rfl

theorem Interpreter.modifyGet_apply {α : Type} (step : Interpreter → α × Interpreter)
    (state : Interpreter) :
    (modifyGet step : Exec α) state = .ok (step state).1 (step state).2 := rfl

/-- Two computations that give a result one after the other. -/
theorem bind_eq_ok {α β : Type} {first : Exec α} {second : α → Exec β} {state after : Interpreter}
    {value : β} (result : (first >>= second) state = .ok value after) :
    ∃ inner middle, first state = .ok inner middle ∧ second inner middle = .ok value after := by
  simp only [bind, EStateM.bind] at result
  cases one : first state with
  | ok inner middle =>
      rw [one] at result
      exact ⟨inner, middle, rfl, result⟩
  | error halt middle =>
      rw [one] at result
      cases result

/-- The error with which a computation has stopped. -/
def failure? {α : Type} : EStateM.Result Halt Interpreter α → Option Error
  | .error (.error cause) _ => some cause
  | _ => none

theorem failure?_eq_some {α : Type} {result : EStateM.Result Halt Interpreter α} {cause : Error} :
    failure? result = some cause ↔ ∃ state, result = .error (.error cause) state := by
  rcases result with ⟨value, state⟩ | ⟨⟨cause'⟩ | _, state⟩ <;> simp [failure?]

@[simp] theorem scope_getElem?_insert (scope : Scope) (key name : String) (value : Int32) :
    (scope.insert key value)[name]? = if key = name then some value else scope[name]? := by
  simp [Std.TreeMap.getElem?_insert]

@[simp] theorem scope_mem_insert (scope : Scope) (key name : String) (value : Int32) :
    name ∈ scope.insert key value ↔ key = name ∨ name ∈ scope := by
  simp [Std.TreeMap.mem_insert]

/-- A global is found, unless the call scope hides it. -/
theorem lookup?_ne_none {environment : Environment} {name : String}
    (bound : name ∈ environment.globals) : environment.lookup? name ≠ none := by
  intro absent
  rw [Environment.lookup?, Option.or_eq_none_iff, Environment.global?] at absent
  rw [Std.TreeMap.mem_iff_isSome_getElem?, absent.2] at bound
  cases bound

/-- A name that has just been bound in the current scope is found there. -/
theorem lookup?_declare (environment : Environment) (name other : String) (value : Int32) :
    (environment.declare name value).lookup? other =
      if name = other then some value else environment.lookup? other := by
  rcases environment with ⟨globals, frame, procedures⟩
  cases frame with
  | none => simp [Environment.declare, Environment.lookup?, Environment.global?]
  | some scope =>
      by_cases same : name = other <;>
        simp [Environment.declare, Environment.lookup?, Environment.global?, same]

/-! ### Input and output -/

/-- What a step does that may fail. -/
theorem attempt_eq {α : Type} (step : Interpreter → Except Error α × Interpreter)
    (state : Interpreter) :
    Interpreter.attempt step state = match step state with
      | (.ok value, after) => .ok value after
      | (.error cause, after) => .error (.error cause) after := by
  rw [Interpreter.attempt]
  simp only [bind, EStateM.bind, Interpreter.modifyGet_apply]
  rcases step state with ⟨answer, after⟩
  cases answer with
  | ok value => rfl
  | error cause => rfl

/-- Reading a number by what is found in the input. -/
theorem readInteger_eq (state : Interpreter) :
    Interpreter.readInteger state = match state.input.readInteger with
      | (.ok value, input) => .ok value { state with input }
      | (.error cause, input) => .error (.error cause) { state with input } := by
  rw [Interpreter.readInteger, attempt_eq]
  rcases state.input.readInteger with ⟨answer, input⟩
  cases answer with
  | ok value => rfl
  | error cause => rfl

/-! ### Calls -/

/-- The procedure that a call means, by what is known. -/
theorem callee_eq (name : String) (arguments : Nat) (state : Interpreter) :
    Interpreter.callee name arguments state =
      match state.environment.procedures.find? (·.name = name) with
      | none => .error (.error (.undefinedProcedure name)) state
      | some procedure =>
          if arguments < procedure.params.length then
            .error (.error (.arity name procedure.params.length arguments)) state
          else .ok procedure state := by
  simp only [Interpreter.callee, bind, EStateM.bind, Interpreter.get_apply]
  cases found : state.environment.procedures.find? (·.name = name) with
  | none =>
      rw [Environment.procedure, found]
      rfl
  | some procedure =>
      rw [Environment.procedure, found]
      by_cases few : arguments < procedure.params.length
      · simp only [few, if_true, Interpreter.ofExcept, pure, EStateM.pure]
        rfl
      · simp only [few, if_false, Interpreter.ofExcept, pure, EStateM.pure]

/-- The procedure known under a name is the first one of this name. -/
theorem procedure_eq_ok {environment : Environment} {name : String} {procedure : Procedure} :
    environment.procedure name = .ok procedure ↔
      environment.procedures.find? (·.name = name) = some procedure := by
  rw [Environment.procedure]
  split
  · next found => simp [found]
  · next absent => simp [absent]

/-- A call that is accepted means the procedure known under its own name, and leaves the state as it
is. -/
theorem callee_eq_ok {name : String} {arguments : Nat} {state after : Interpreter}
    {procedure : Procedure}
    (found : Interpreter.callee name arguments state = .ok procedure after) :
    after = state ∧ state.environment.procedure procedure.name = .ok procedure ∧
      procedure.params.length ≤ arguments := by
  rw [callee_eq] at found
  cases known : state.environment.procedures.find? (·.name = name) with
  | none =>
      rw [known] at found
      cases found
  | some other =>
      have named : other.name = name := by simpa using List.find?_some known
      rw [known] at found
      by_cases few : arguments < other.params.length
      · simp only [few, if_true] at found
        cases found
      · simp only [few, if_false] at found
        cases found
        exact ⟨rfl, procedure_eq_ok.2 (by rw [named, known]), Nat.le_of_not_lt few⟩

/-- The state in which the body of a call starts. -/
def Interpreter.entered (state : Interpreter) (scope : Scope) : Interpreter :=
  { state with environment := (state.environment.enter scope).2 }

/-- The state behind a call, in which the scope of the caller is current again. -/
def Interpreter.left (state : Interpreter) (caller : Option Scope) : Interpreter :=
  { state with environment := (state.environment.leave caller).2 }

/-- What is run in a scope of its own is run from there, until the scope of the caller is current
again. -/
theorem inScope_eq (scope : Scope) (name : String) (body : Exec Unit) (state : Interpreter) :
    Interpreter.inScope scope name body state =
      match body (state.entered scope) with
      | .ok _ after =>
          .ok ((after.environment.leave state.environment.frame).1[name]?.getD 0)
            (after.left state.environment.frame)
      | .error halt after => .error halt (after.left state.environment.frame) := rfl

/-- What a call does is what the body does in its own scope, until the scope of the caller is
current again. -/
theorem invoke_succ (fuel : Nat) (procedure : Procedure) (values : List Int32)
    (state : Interpreter) :
    Interpreter.invoke (fuel + 1) procedure values state =
      match Interpreter.execute fuel procedure.body (state.entered (procedure.frame values)) with
      | .ok _ after =>
          .ok ((after.environment.leave state.environment.frame).1[procedure.name]?.getD 0)
            (after.left state.environment.frame)
      | .error halt after => .error halt (after.left state.environment.frame) := rfl

/-! ### The first scope of a call -/

/-- The names of a call with their first values; of equal names the last one counts. -/
def Procedure.bindings (procedure : Procedure) (values : List Int32) : List (String × Int32) :=
  (procedure.name, 0) :: (procedure.params.zip values ++ procedure.locals.map fun name => (name, 0))

/-- Adds bindings to a scope, one after another. -/
def bindAll (scope : Scope) (bindings : List (String × Int32)) : Scope :=
  bindings.foldl (fun scope binding => scope.insert binding.1 binding.2) scope

theorem frame_eq_bindAll (procedure : Procedure) (values : List Int32) :
    procedure.frame values = bindAll ∅ (procedure.bindings values) := by
  simp only [Procedure.frame, bindAll, Procedure.bindings, List.foldl_cons, List.foldl_append,
    List.foldl_map]

/-- A scope has the last value to which a name was bound. -/
theorem getElem?_bindAll (scope : Scope) (bindings : List (String × Int32)) (name : String) :
    (bindAll scope bindings)[name]? =
      ((bindings.reverse.find? (·.1 = name)).map (·.2)).or scope[name]? := by
  induction bindings generalizing scope with
  | nil => rfl
  | cons binding rest ih =>
      have step : bindAll scope (binding :: rest) =
          bindAll (scope.insert binding.1 binding.2) rest := rfl
      rw [step, ih, List.reverse_cons, List.find?_append, scope_getElem?_insert]
      cases rest.reverse.find? (·.1 = name) with
      | some found => rfl
      | none => by_cases same : binding.1 = name <;> simp [same]

theorem mem_bindAll {scope : Scope} {bindings : List (String × Int32)} {name : String} :
    name ∈ bindAll scope bindings ↔ name ∈ bindings.map (·.1) ∨ name ∈ scope := by
  induction bindings generalizing scope with
  | nil => simp [bindAll]
  | cons binding rest ih =>
      have step : bindAll scope (binding :: rest) =
          bindAll (scope.insert binding.1 binding.2) rest := rfl
      rw [step, ih, scope_mem_insert, List.map_cons, List.mem_cons, ← or_assoc,
        or_comm (a := _ ∈ _), eq_comm]

/-- The slots of a frame are the bindings of a call, the last one first. -/
theorem slots_eq_bindings {procedure : Procedure} {values : List Int32}
    (enough : procedure.params.length ≤ values.length) :
    Frame.slots procedure = (procedure.bindings values).reverse.map (·.1) := by
  simp [Frame.slots, Procedure.bindings, List.map_reverse, Function.comp_def,
    List.map_fst_zip enough]

/-- A call starts with a scope of the names that its procedure owns. -/
theorem mem_frame {procedure : Procedure} {values : List Int32} {name : String}
    (enough : procedure.params.length ≤ values.length) :
    name ∈ procedure.frame values ↔ procedure.owns name = true := by
  rw [frame_eq_bindAll, mem_bindAll, ← Frame.mem_slots, slots_eq_bindings enough]
  simp

/-! ### The start of a run -/

/-- The state in which the main statement of a program starts: its variables are zero and its
procedures are known. -/
def Interpreter.prepare (program : Program) (state : Interpreter) : Interpreter :=
  { state with environment := { state.environment with
      globals := bindAll state.environment.globals (program.globals.map fun name => (name, 0))
      procedures := program.procedures.reverse ++ state.environment.procedures } }

theorem forM_declare (names : List String) (state : Interpreter)
    (main : state.environment.frame = none) :
    (names.forM fun name => Interpreter.declare name 0) state =
      .ok () { state with environment := { state.environment with
        globals := bindAll state.environment.globals (names.map fun name => (name, 0)) } } := by
  induction names generalizing state with
  | nil => rfl
  | cons name rest ih =>
      have step : Interpreter.declare name 0 state = .ok () { state with
          environment := { state.environment with
            globals := state.environment.globals.insert name 0 } } := by
        have declared : state.environment.declare name 0 = { state.environment with
            globals := state.environment.globals.insert name 0 } := by
          simp only [Environment.declare, main]
        rw [← declared]
        rfl
      simp only [List.forM_eq_forM, List.forM_cons, bind, EStateM.bind, step]
      exact ih _ main

theorem forM_register (procedures : List Procedure) (state : Interpreter) :
    procedures.forM Interpreter.register state =
      .ok () { state with environment := { state.environment with
        procedures := procedures.reverse ++ state.environment.procedures } } := by
  induction procedures generalizing state with
  | nil => rfl
  | cons procedure rest ih =>
      rw [List.reverse_cons, List.append_assoc]
      exact ih { state with environment := state.environment.register procedure }

/-- To run a program is to execute its main statement from there. -/
theorem run_eq (fuel : Nat) (program : Program) {state : Interpreter}
    (main : state.environment.frame = none) :
    Interpreter.run fuel program state =
      Interpreter.execute fuel program.body (state.prepare program) := by
  rw [Interpreter.run]
  simp only [bind, EStateM.bind, forM_declare program.globals state main, forM_register]
  rfl

end MiniPascal
