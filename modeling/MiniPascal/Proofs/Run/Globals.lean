import MiniPascal.Proofs.Run.Isolation
import MiniPascal.Proofs.Tree.Mentions

/-!
# What becomes of the globals

A call makes no name global: while it is active, a name that is bound nowhere is bound in its scope.
So the globals of a run are among those that the program mentions outside of its procedures. A call
changes a global only by an assignment of a procedure that does not own the name, since the names
that a procedure owns are bound in its scope while its body is executed.
-/

namespace MiniPascal

open Interpreter (readVariable invoke evaluate execute)

variable {environment : Environment} {name other : String} {value : Int32}

/-! ### Which names become global -/

/-- The procedures stay known, and only some names can become global. -/
structure Environment.Adds (names : List String) (before after : Environment) : Prop where
  procedures : after.procedures = before.procedures
  globals : ∀ name ∈ after.globals, name ∈ before.globals ∨ name ∈ names

namespace Environment.Adds

variable {names : List String}

theorem refl (environment : Environment) : environment.Adds names environment where
  procedures := rfl
  globals _ := .inl

theorem trans {first second third : Environment} (one : first.Adds names second)
    (two : second.Adds names third) : first.Adds names third where
  procedures := two.procedures.trans one.procedures
  globals name bound := by
    cases two.globals name bound with
    | inl bound => exact one.globals name bound
    | inr member => exact .inr member

theorem insert (member : name ∈ names) :
    environment.Adds names
      { environment with globals := environment.globals.insert name value } where
  procedures := rfl
  globals other bound := by
    cases (scope_mem_insert _ _ _ _).1 bound with
    | inl same => exact .inr (same ▸ member)
    | inr old => exact .inl old

theorem declare (member : name ∈ names) :
    environment.Adds names (environment.declare name value) := by
  rw [Environment.declare]
  split
  · exact ⟨rfl, fun _ => .inl⟩
  · exact insert member

theorem set (member : name ∈ names) : environment.Adds names (environment.set name value) := by
  rw [Environment.set]
  split
  · split
    · exact ⟨rfl, fun _ => .inl⟩
    · split
      · exact insert member
      · exact ⟨rfl, fun _ => .inl⟩
  · exact insert member

theorem get (member : name ∈ names) : environment.Adds names (environment.get name).2 := by
  rw [Environment.get]
  split
  · exact refl environment
  · exact declare member

end Environment.Adds

/-- That only some names become global, as a change of the state. -/
def adding (names : List String) : Change where
  holds before after := before.environment.Adds names after.environment
  refl state := .refl state.environment
  trans := .trans
  procedures adds := adds.procedures

/-- A call makes no name global, since its body is executed in a scope of its own. -/
theorem mem_globals_invoke {fuel : Nat} {procedure : Procedure} {values : List Int32}
    {state : Interpreter} :
    name ∈ (stateAfter (invoke fuel procedure values state)).environment.globals ↔
      name ∈ state.environment.globals := by
  cases fuel with
  | zero => rfl
  | succ fuel =>
      rw [stateAfter_invoke_succ]
      exact (keeps_execute_balanced fuel procedure.body _).globals rfl name

theorem keepsCalls_adding (names : List String) (fuel : Nat) :
    KeepsCalls (adding names) (invoke fuel) := by
  intro procedure values state accepted
  constructor
  · exact (keepsCalls_balanced fuel procedure values state accepted).procedures
  · intro name bound
    exact .inl (mem_globals_invoke.1 bound)

/-- A statement makes at most the names global that it touches. -/
theorem keeps_execute_adding (fuel : Nat) (tree : Stmt) :
    Keeps (adding tree.touched) (execute fuel tree) := by
  apply keeps_executeWith (keepsCalls_adding _ fuel)
  apply KeepsSteps.of_environment (Environment.Adds tree.touched) (fun adds => adds) .refl
  · intro name read environment
    exact .get (mem_touched_of_var read)
  · intro name assigned value environment
    exact .set (mem_touched_of_target (.inl assigned))
  · intro name received value environment
    exact .declare (mem_touched_of_target (.inr received))

/-- Behind a run on a fresh interpreter every name among the globals is a global name of the
program. -/
theorem mem_globalNames_of_run {fuel : Nat} {program : Program} {input : Input}
    {capacity : Option Nat}
    (bound : name ∈ (stateAfter (Interpreter.run fuel program
      (.limited input capacity))).environment.globals) :
    name ∈ program.globalNames := by
  rw [run_eq fuel program rfl] at bound
  rw [mem_globalNames]
  cases (keeps_execute_adding fuel program.body _).globals name bound with
  | inl prepared =>
      cases mem_bindAll.1 prepared with
      | inl declared => exact .inl (by simpa using declared)
      | inr empty => simp [Interpreter.limited] at empty
  | inr touched => exact .inr (.inl touched)

/-- Behind a run on a fresh interpreter every declared variable is bound. -/
theorem mem_globals_of_run {fuel : Nat} {program : Program} {input : Input}
    {capacity : Option Nat} (declared : name ∈ program.globals) :
    name ∈ (stateAfter (Interpreter.run fuel program
      (.limited input capacity))).environment.globals := by
  rw [run_eq fuel program rfl]
  apply (keeps_execute_growing fuel program.body _).globals
  exact mem_bindAll.2 (.inl (by simpa using declared))

/-- The global names of a program are listed once each: the declared variables in the order of their
first declarations, and then the names that the main statement mentions or a procedure mentions
without owning them. However a run on a fresh interpreter ends, the names among its globals are
listed, and the declared variables are bound. -/
theorem globalNames_exact (program : Program) :
    program.globalNames.Nodup ∧
    (∀ name, name ∈ program.globalNames ↔
      name ∈ program.globals ∨ program.body.Mentions name ∨
        ∃ procedure ∈ program.procedures,
          procedure.owns name = false ∧ procedure.body.Mentions name) ∧
    (∀ declared ∈ program.globals, ∀ other ∈ program.globalNames, other ∉ program.globals →
      program.globalNames.idxOf declared < program.globalNames.idxOf other) ∧
    (∀ first ∈ program.globals, ∀ second ∈ program.globals,
      (program.globalNames.idxOf first < program.globalNames.idxOf second ↔
        program.globals.idxOf first < program.globals.idxOf second)) ∧
    ∀ (fuel : Nat) (input : Input) (capacity : Option Nat),
      let after := stateAfter (Interpreter.run fuel program (.limited input capacity))
      (∀ name ∈ after.environment.globals, name ∈ program.globalNames) ∧
      ∀ name ∈ program.globals, name ∈ after.environment.globals := by
  refine ⟨nodup_eraseDups _, fun _ => mem_globalNames_iff, ?_, ?_, ?_⟩
  · intro declared member other _ undeclared
    rw [idxOf_globalNames_lt member, List.idxOf_eq_length undeclared]
    exact List.idxOf_lt_length_of_mem member
  · intro first member second _
    exact idxOf_globalNames_lt member second
  · intro fuel input capacity
    exact ⟨fun _ => mem_globalNames_of_run, fun _ => mem_globals_of_run⟩

/-! ### Who can change a global -/

/-- No procedure that can be called assigns to a name without owning it. -/
def Environment.Spares (environment : Environment) (name : String) : Prop :=
  ∀ called procedure, environment.procedure called = .ok procedure →
    procedure.owns name = false → name ∉ procedure.body.assigned

instance (environment : Environment) (name : String) : Decidable (environment.Spares name) :=
  decidable_of_iff
    (∀ called ∈ environment.procedures.map Procedure.name,
      ∀ procedure ∈ environment.procedures.find? fun known : Procedure => known.name = called,
        procedure.owns name = false → name ∉ procedure.body.assigned) <| by
    constructor
    · intro spares called procedure known
      have found := procedure_eq_ok.1 known
      have named : procedure.name = called := by simpa using List.find?_some found
      have listed := List.mem_map_of_mem (f := Procedure.name) (List.mem_of_find?_eq_some found)
      exact spares called (named ▸ listed) procedure found
    · intro spares called _ procedure found
      exact spares called procedure (procedure_eq_ok.2 found)

theorem Environment.Spares.congr {before after : Environment} (spares : before.Spares name)
    (same : after.procedures = before.procedures) : after.Spares name := by
  intro called procedure known
  rw [Environment.procedure, same] at known
  exact spares called procedure known

/-- That the global of a name is not changed, as a change of the state, if the name is spared and
something holds of the names, which then still holds. -/
def sparing (name : String) (guard : Environment → Prop) : Change where
  holds before after := after.environment.procedures = before.environment.procedures ∧
    (before.environment.Spares name → guard before.environment →
      guard after.environment ∧ after.environment.global? name = before.environment.global? name)
  refl _ := ⟨rfl, fun _ guarded => ⟨guarded, rfl⟩⟩
  trans one two := by
    refine ⟨two.1.trans one.1, ?_⟩
    intro spares guarded
    obtain ⟨guarded, same⟩ := one.2 spares guarded
    obtain ⟨guarded, same'⟩ := two.2 (spares.congr one.1) guarded
    exact ⟨guarded, same'.trans same⟩
  procedures kept := kept.1

/-- Something that holds of the names as long as the scope and the global of a name stay. -/
def Respects (name : String) (guard : Environment → Prop) : Prop :=
  ∀ before after : Environment, guard before → after.frame = before.frame →
    after.global? name = before.global? name → guard after

/-- A call is active, and its scope has a name if the procedure owns it. -/
def Environment.Shields (name : String) (owned : Prop) (environment : Environment) : Prop :=
  ∃ scope, environment.frame = some scope ∧ (owned → name ∈ scope)

namespace Environment.Shields

variable {owned : Prop}

theorem respects : Respects name (Environment.Shields name owned) := by
  rintro before after ⟨scope, called, has⟩ sameFrame _
  exact ⟨scope, sameFrame.trans called, has⟩

theorem insert {scope : Scope} (has : owned → name ∈ scope) :
    Environment.Shields name owned
      { environment with frame := some (scope.insert other value) } :=
  ⟨_, rfl, fun own => (scope_mem_insert _ _ _ _).2 (.inr (has own))⟩

/-- What is bound in the current scope is bound in that of the call. -/
theorem declare (shields : environment.Shields name owned) :
    (environment.declare other value).Shields name owned ∧
      (environment.declare other value).global? name = environment.global? name := by
  obtain ⟨scope, called, has⟩ := shields
  simp only [Environment.declare, called]
  exact ⟨insert has, rfl⟩

/-- An assignment to a name that the procedure owns finds it in the scope of the call. -/
theorem set (shields : environment.Shields name owned) (allowed : other = name → owned) :
    (environment.set other value).Shields name owned ∧
      (environment.set other value).global? name = environment.global? name := by
  obtain ⟨scope, called, has⟩ := shields
  simp only [Environment.set, called]
  split
  · exact ⟨insert has, rfl⟩
  · next unbound =>
      split
      · refine ⟨⟨scope, rfl, has⟩, ?_⟩
        have different : other ≠ name := by
          intro same
          exact unbound (same ▸ has (allowed same))
        simp [Environment.global?, different]
      · exact ⟨insert has, rfl⟩

theorem get (shields : environment.Shields name owned) :
    (environment.get other).2.Shields name owned ∧
      (environment.get other).2.global? name = environment.global? name := by
  rw [Environment.get]
  split
  · exact ⟨shields, rfl⟩
  · exact shields.declare

end Environment.Shields

/-- The body of a procedure spares a name that it does not assign to or that the procedure owns. -/
theorem keepsSteps_sparing {owned : Prop} {parts : List Expr} {assigned received : List String}
    (allowed : name ∈ assigned → owned) :
    KeepsSteps (sparing name (Environment.Shields name owned)) parts assigned received := by
  apply KeepsSteps.of_environment fun before after =>
    after.procedures = before.procedures ∧ (before.Spares name → before.Shields name owned →
      after.Shields name owned ∧ after.global? name = before.global? name)
  · intro before after kept
    exact kept
  · intro environment
    exact ⟨rfl, fun _ shields => ⟨shields, rfl⟩⟩
  · intro other _ environment
    exact ⟨(grows_get environment other).procedures, fun _ shields => shields.get⟩
  · intro other member value environment
    exact ⟨(grows_set environment other value).procedures,
      fun _ shields => shields.set fun same => allowed (same ▸ member)⟩
  · intro other _ value environment
    exact ⟨(grows_declare environment other value).procedures, fun _ shields => shields.declare⟩

/-- If calls do not change the global of a name that is spared, then they spare the name whatever
else is asked of the scope and of this global. -/
theorem keepsCalls_of_global {fuel : Nat} {guard : Environment → Prop}
    (calls : ∀ {procedure values state}, state.environment.Accepts procedure values →
      state.environment.Spares name →
        (stateAfter (invoke fuel procedure values state)).environment.global? name =
          state.environment.global? name)
    (respects : Respects name guard) : KeepsCalls (sparing name guard) (invoke fuel) := by
  intro procedure values state accepted
  constructor
  · exact (keepsCalls_growing fuel procedure values state accepted).procedures
  · intro spares guarded
    have same := calls accepted spares
    exact ⟨respects _ _ guarded (frame_invoke fuel procedure values state) same, same⟩

/-- A call does not change the global of a name that is spared. The induction is on the fuel, as the
body of the call may call again. -/
theorem global?_invoke {fuel : Nat} {procedure : Procedure} {values : List Int32}
    {state : Interpreter} (accepted : state.environment.Accepts procedure values)
    (spares : state.environment.Spares name) :
    (stateAfter (invoke fuel procedure values state)).environment.global? name =
      state.environment.global? name := by
  induction fuel generalizing procedure values state with
  | zero => rfl
  | succ fuel ih =>
      have allowed : name ∈ procedure.body.assigned → procedure.owns name = true := by
        intro assigned
        cases owned : procedure.owns name with
        | true => rfl
        | false => exact absurd assigned (spares procedure.name procedure accepted.known owned)
      have body := keeps_executeWith (keepsCalls_of_global ih Environment.Shields.respects) fuel
        procedure.body (keepsSteps_sparing allowed) (state.entered (procedure.frame values))
      rw [stateAfter_invoke_succ]
      apply (body.2 spares _).2
      exact ⟨procedure.frame values, rfl, (mem_frame accepted.enough).2⟩

/-- Reading a variable does not change a global. -/
theorem global?_get (bound : name ∈ environment.globals) :
    (environment.get other).2.global? name = environment.global? name := by
  rw [Environment.get]
  split
  · rfl
  · next unbound =>
      have different : other ≠ name := by
        intro same
        exact lookup?_ne_none bound (same ▸ unbound)
      rw [Environment.declare]
      split
      · rfl
      · simp [Environment.global?, different]

/-- An expression does not change a global that no procedure assigns to without owning it: reads
from the input, parameters, locals and results of the same name leave it alone, however the
evaluation ends. -/
theorem evaluate_keeps_global (fuel : Nat) (tree : Expr) (state : Interpreter) (name : String)
    (bound : name ∈ state.environment.globals) (spares : state.environment.Spares name) :
    (stateAfter (evaluate fuel tree state)).environment.global? name =
      state.environment.global? name := by
  have respects : Respects name fun environment => name ∈ environment.globals := by
    intro before after bound _ same
    simp only [Environment.global?] at same
    rw [Std.TreeMap.mem_iff_isSome_getElem?] at bound ⊢
    rwa [same]
  have keeps : Keeps (sparing name fun environment => name ∈ environment.globals)
      (evaluate fuel tree) := by
    apply keeps_evaluateWith (keepsCalls_of_global global?_invoke respects)
    intro other _ state
    have grows := grows_get state.environment other
    exact ⟨grows.procedures, fun _ bound => ⟨grows.globals name bound, global?_get bound⟩⟩
  exact ((keeps state).2 spares bound).2

/-- Procedures that have the name `x` as a result, a parameter and a local, one that reads it from
the input, and in front of an older procedure, which it hides, one that only prints it. -/
def shadowingProcedures : List Procedure :=
  [{ name := "x", params := [], locals := [], body := .assign "x" (.num 7) },
    { name := "p", params := ["x"], locals := [],
      body := .block
        [.assign "x" (.binary .add (.var "x") (.call "x" [])), .assign "p" (.call "q" [])] },
    { name := "q", params := [], locals := ["x"],
      body := .block [.assign "x" (.call "r" []), .assign "q" (.call "h" [])] },
    { name := "r", params := [], locals := [], body := .read "x" },
    { name := "h", params := [], locals := [], body := .write (.var "x") },
    { name := "h", params := [], locals := [], body := .assign "x" (.num 9) }]

/-- A state in which these procedures are known and `x` is a global. -/
def shadowingState : Interpreter where
  environment := { globals := (∅ : Scope).insert "x" 1, procedures := shadowingProcedures }
  input := [53, 10]

theorem evaluate_keeps_global_shadowingState :
    "x" ∈ shadowingState.environment.globals ∧ shadowingState.environment.Spares "x" ∧
      (stateAfter (evaluate 4 (.call "p" [.num 2]) shadowingState)).environment.global? "x" =
        some 1 := by
  have bound : "x" ∈ shadowingState.environment.globals := by decide
  have spares : shadowingState.environment.Spares "x" := by decide
  refine ⟨bound, spares, ?_⟩
  rw [evaluate_keeps_global 4 _ _ "x" bound spares]
  rfl

end MiniPascal
