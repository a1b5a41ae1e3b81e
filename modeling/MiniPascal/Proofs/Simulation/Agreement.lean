import MiniPascal.Proofs.Compile.Slots
import MiniPascal.Proofs.Machine.Steps
import MiniPascal.Proofs.Run.Basic

/-!
# Interpreter and machine in step

`Agrees` relates the state of a running program to a machine that executes its code: the same input
is left, the same bytes are written, every global word holds the value of its variable, and in a
call every word of the frame holds the value of the name it stands for. `Follows` says that a
machine does what a computation of the interpreter does: it reaches a machine for its result, or a
trap for its error.
-/

namespace MiniPascal

open Interpreter (Exec)
open Machine

/-- A machine at a trap for the error with which the interpreter stopped. A read that fails has
still its line ahead. -/
structure Trapped (lines : List Line) (machine : Machine) (cause : Error) (state : Interpreter) :
    Prop where
  output : machine.output = state.output.written
  fault :
    (machine.step lines = .trap .division ∧ machine.input = state.input ∧
      ∃ operation, cause = .byZero operation) ∨
    (machine.step lines = .trap .reading ∧
      machine.input.readInteger = (.error cause, state.input))

/-- A machine does what a computation of the interpreter does. Nothing is said of a computation
that has run out of fuel. -/
def Follows {α : Type} (lines : List Line) (machine : Machine) :
    EStateM.Result Halt Interpreter α → (α → Interpreter → Machine → Prop) → Prop
  | .ok value state, post => ∃ after, Steps lines machine after ∧ post value state after
  | .error (.error cause) state, _ =>
      ∃ after, Steps lines machine after ∧ Trapped lines after cause state
  | .error .outOfFuel _, _ => True

namespace Follows

variable {α β : Type} {lines : List Line} {machine after : Machine}
variable {result : EStateM.Result Halt Interpreter α}
variable {post post' : α → Interpreter → Machine → Prop} {state : Interpreter}

theorem pure {value : α} (holds : post value state machine) :
    Follows lines machine ((Pure.pure value : Exec α) state) post :=
  ⟨machine, .refl, holds⟩

/-- Steps that come first. -/
theorem of_steps (run : Steps lines machine after) (follows : Follows lines after result post) :
    Follows lines machine result post := by
  cases result with
  | ok value state =>
      obtain ⟨final, run', holds⟩ := follows
      exact ⟨final, run.trans run', holds⟩
  | error halt state =>
      cases halt with
      | outOfFuel => trivial
      | error cause =>
          obtain ⟨final, run', trapped⟩ := follows
          exact ⟨final, run.trans run', trapped⟩

/-- An error says nothing about a result. -/
theorem of_error {halt : Halt} {final : β → Interpreter → Machine → Prop}
    (follows : Follows lines machine (.error halt state) post) :
    Follows lines machine (.error halt state) final := by
  cases halt with
  | outOfFuel => trivial
  | error cause => exact follows

/-- Steps that come last. -/
theorem continue_steps (follows : Follows lines machine result post)
    (continues : ∀ value state after, Steps lines machine after → post value state after →
      ∃ final, Steps lines after final ∧ post' value state final) :
    Follows lines machine result post' := by
  cases result with
  | ok value state =>
      obtain ⟨after, run, holds⟩ := follows
      obtain ⟨final, run', holds'⟩ := continues value state after run holds
      exact ⟨final, run.trans run', holds'⟩
  | error halt state => exact of_error follows

/-- One computation after another. -/
theorem bind {first : Exec α} {second : α → Exec β} {final : β → Interpreter → Machine → Prop}
    (follows : Follows lines machine (first state) post)
    (continues : ∀ value state after, Steps lines machine after → post value state after →
      Follows lines after (second value state) final) :
    Follows lines machine ((first >>= second) state) final := by
  simp only [Bind.bind, EStateM.bind]
  cases result : first state with
  | ok value middle =>
      rw [result] at follows
      obtain ⟨after, run, holds⟩ := follows
      exact of_steps run (continues value middle after run holds)
  | error halt middle =>
      rw [result] at follows
      exact of_error follows

end Follows

/-! ### Words of variables -/

/-- How many words above the stack pointer a name has its slot. -/
def slot? (frame : Option Frame) (name : String) : Option Nat :=
  frame.bind fun frame => ((Frame.slots frame.procedure).idxOf? name).map (frame.height + ·)

/-- The word that stands for a name. -/
def wordOf? (frame : Option Frame) (position : Int) (machine : Machine) (name : String) :
    Option Word :=
  match slot? frame name with
  | some index => machine.stack (position + index)
  | none => machine.data (.global name)

/-- A machine that has stored the accumulator to a variable. -/
def stored (frame : Option Frame) (position : Int) (machine : Machine) (name : String) : Machine :=
  match slot? frame name with
  | some index =>
      { machine with
        place := machine.place + 1
        stack := Function.update machine.stack (position + index)
          (some (machine.registers .accumulator)) }
  | none =>
      { machine.set .scratch (.data (.global name)) with
        place := machine.place + 2
        data := Function.update machine.data (.global name)
          (some (machine.registers .accumulator)) }

/-- The code that accesses a variable, by where it is. -/
theorem access_eq (word : Nat → Register → Instr) (frame : Option Frame) (name : String) :
    Code.lines (Code.access word frame name) =
      match slot? frame name with
      | some index => [.instr (word (index * Frame.wordSize) .stackPointer)]
      | none => [.instr (.la .scratch (.global name)), .instr (word 0 .scratch)] := by
  cases frame with
  | none => rfl
  | some frame =>
      simp only [Code.access, slot?, Option.bind_some, Frame.offset?]
      cases (Frame.slots frame.procedure).idxOf? name with
      | none => rfl
      | some index => rfl

section Access

variable {lines rest : List Line} {machine : Machine} {frame : Option Frame} {position : Int}
variable {name : String}

/-- Loading a variable leaves its word in the accumulator. -/
theorem runs_load {word : Word}
    (here : machine.ahead lines = Code.lines (Code.load frame name) ++ rest)
    (pointer : machine.registers .stackPointer = .stack position)
    (known : slot? frame name = none → (wordAt? lines (.global name)).isSome)
    (holds : wordOf? frame position machine name = some word) :
    ∃ after, Runs lines machine after rest ∧ Untouched machine after ∧
      after.registers .accumulator = word := by
  rw [Code.load, access_eq] at here
  unfold wordOf? at holds
  split at here
  · next index slot =>
      rw [slot] at holds
      have loaded : Runs lines machine (machine.set .accumulator word) rest :=
        runs_instr here (by simp [execute, pointer, load?, Frame.wordSize, wordSize, holds]) rfl
      exact ⟨_, loaded, untouched_accumulator _ _, set_self _ _ _⟩
  · next slot =>
      rw [slot] at holds
      have addressed : Runs lines machine (machine.set .scratch (.data (.global name))) _ :=
        runs_instr here (by simp [execute, known slot]) rfl
      have loaded : Runs lines _
          ((machine.set .scratch (.data (.global name))).set .accumulator word) rest :=
        runs_instr addressed.ahead (by simp [execute, Machine.set, load?, holds]) rfl
      have untouched : Untouched machine (machine.set .scratch (.data (.global name))) :=
        untouched_set _ _ (by decide) (by decide)
      exact ⟨_, addressed.trans loaded, untouched.trans (untouched_accumulator _ _),
        set_self _ _ _⟩

theorem runs_store
    (here : machine.ahead lines = Code.lines (Code.store frame name) ++ rest)
    (pointer : machine.registers .stackPointer = .stack position)
    (known : slot? frame name = none →
      (wordAt? lines (.global name)).isSome ∧ (machine.data (.global name)).isSome) :
    Runs lines machine (stored frame position machine name) rest := by
  rw [Code.store, access_eq] at here
  unfold stored
  split at here
  · exact runs_storeSlot here pointer
  · next slot =>
      have addressed : Runs lines machine (machine.set .scratch (.data (.global name))) _ :=
        runs_instr here (by simp [execute, known slot]) rfl
      refine addressed.trans (runs_instr addressed.ahead ?_ rfl)
      have kept : Register.accumulator ≠ Register.scratch := by decide
      simp [execute, Machine.set, store?, known slot, Function.update_of_ne kept]

end Access

/-! ### Agreement -/

/-- The scope of a call and the words of its frame: each name of the procedure has the value of
its first slot. Other names in the scope were read while they were bound nowhere, so they are zero
and no globals. -/
structure FrameAgrees (procedure : Procedure) (base : Int) (globals scope : Scope)
    (stack : Int → Option Word) : Prop where
  owned : ∀ name index, (Frame.slots procedure).idxOf? name = some index →
    ∃ value, scope[name]? = some value ∧ stack (base + index) = some (.number value)
  other : ∀ name value, scope[name]? = some value → procedure.owns name = false →
    value = 0 ∧ name ∉ globals

/-- The current scope and the frame for which code was written. -/
def ScopeAgrees (environment : Environment) (position : Int) (stack : Int → Option Word) :
    Option Frame → Prop
  | none => environment.frame = none
  | some frame => ∃ scope, environment.frame = some scope ∧
      FrameAgrees frame.procedure (position + frame.height) environment.globals scope stack

/-- What a running program and a machine share apart from calls. -/
structure Shares (program : Program) (state : Interpreter) (machine : Machine) : Prop where
  input : machine.input = state.input
  output : machine.output = state.output.written
  unbounded : state.output.capacity = none
  procedures : state.environment.procedures = program.procedures.reverse
  declared : ∀ name ∈ program.globals, name ∈ state.environment.globals
  words : ∀ name ∈ program.globalNames, machine.data (.global name) =
    some (.number (state.environment.globals[name]?.getD 0))

/-- The state of a running program and a machine whose stack pointer is at `position`, in code
written for `frame`. -/
structure Agrees (program : Program) (frame : Option Frame) (position : Int)
    (state : Interpreter) (machine : Machine) : Prop extends Shares program state machine where
  pointer : machine.registers .stackPointer = .stack position
  scope : ScopeAgrees state.environment position machine.stack frame

/-- In a call, no global name comes or goes. -/
def SameGlobals (frame : Option Frame) (before after : Interpreter) : Prop :=
  frame.isSome → ∀ name, name ∈ after.environment.globals ↔ name ∈ before.environment.globals

/-- What code leaves alone: the return address and the words of the stack from `limit` on. -/
structure Kept (limit : Int) (machine after : Machine) : Prop where
  returnAddress : after.registers .returnAddress = machine.registers .returnAddress
  stack : ∀ position, limit ≤ position → after.stack position = machine.stack position

/-- A name has a slot in the frame or a global word. -/
def Visible (program : Program) (frame : Option Frame) (name : String) : Prop :=
  slot? frame name = none → name ∈ program.globalNames

theorem SameGlobals.refl (frame : Option Frame) (state : Interpreter) :
    SameGlobals frame state state :=
  fun _ _ => Iff.rfl

theorem SameGlobals.trans {frame : Option Frame} {first second third : Interpreter}
    (same : SameGlobals frame first second) (same' : SameGlobals frame second third) :
    SameGlobals frame first third :=
  fun called name => (same' called name).trans (same called name)

theorem Kept.refl (limit : Int) (machine : Machine) : Kept limit machine machine where
  returnAddress := rfl
  stack _ _ := rfl

theorem Kept.trans {limit limit' : Int} {first second third : Machine}
    (kept : Kept limit first second) (kept' : Kept limit' second third) (below : limit' ≤ limit) :
    Kept limit first third where
  returnAddress := kept'.returnAddress.trans kept.returnAddress
  stack position above :=
    (kept'.stack position (Int.le_trans below above)).trans (kept.stack position above)

theorem Kept.mono {limit limit' : Int} {machine after : Machine} (kept : Kept limit machine after)
    (below : limit ≤ limit') : Kept limit' machine after where
  returnAddress := kept.returnAddress
  stack position above := kept.stack position (Int.le_trans below above)

theorem FrameAgrees.of_globals {procedure : Procedure} {base : Int} {globals globals' scope : Scope}
    {stack : Int → Option Word} (agrees : FrameAgrees procedure base globals scope stack)
    (same : ∀ name, name ∈ globals' ↔ name ∈ globals) :
    FrameAgrees procedure base globals' scope stack where
  owned := agrees.owned
  other name value bound foreign :=
    ⟨(agrees.other name value bound foreign).1, fun known =>
      (agrees.other name value bound foreign).2 ((same name).1 known)⟩

section Scopes

variable {environment : Environment} {position : Int} {stack stack' : Int → Option Word}
variable {frame : Option Frame}

/-- Words below the stack pointer are no part of a frame. -/
theorem ScopeAgrees.of_stack (agrees : ScopeAgrees environment position stack frame)
    (same : ∀ place, position ≤ place → stack' place = stack place) :
    ScopeAgrees environment position stack' frame := by
  cases frame with
  | none => exact agrees
  | some frame =>
      obtain ⟨scope, current, owned, other⟩ := agrees
      refine ⟨scope, current, fun name index slot => ?_, other⟩
      obtain ⟨value, bound, held⟩ := owned name index slot
      exact ⟨value, bound, by rw [same _ (by omega), held]⟩

/-- A temporary word more moves the stack pointer and leaves the frame where it is. -/
theorem scopeAgrees_deeper :
    ScopeAgrees environment (position - 1) stack (Code.deeper frame) ↔
      ScopeAgrees environment position stack frame := by
  cases frame with
  | none => rfl
  | some frame =>
      have same : position - 1 + ((frame.height + 1 : Nat) : Int) = position + frame.height := by
        omega
      simp only [Code.deeper, Option.map_some, ScopeAgrees, Frame.push, same]

theorem scopeAgrees_deepen {count : Nat} :
    ScopeAgrees environment (position - count) stack (Code.deepen count frame) ↔
      ScopeAgrees environment position stack frame := by
  induction count generalizing frame position with
  | zero => simp [Code.deepen]
  | succ count ih =>
      have same : position - ((count + 1 : Nat) : Int) = position - 1 - count := by omega
      rw [Code.deepen, same, ih, scopeAgrees_deeper]

/-- A call leaves the scope of its caller, which still agrees with the words from the stack pointer
on. -/
theorem ScopeAgrees.of_call {environment' : Environment}
    (agrees : ScopeAgrees environment position stack frame)
    (current : environment'.frame = environment.frame)
    (globals : ∀ name, name ∈ environment'.globals ↔ name ∈ environment.globals)
    (same : ∀ place, position ≤ place → stack' place = stack place) :
    ScopeAgrees environment' position stack' frame := by
  refine ScopeAgrees.of_stack ?_ same
  cases frame with
  | none => exact current.trans agrees
  | some frame =>
      obtain ⟨scope, bound, framed⟩ := agrees
      exact ⟨scope, current.trans bound, framed.of_globals globals⟩

end Scopes

/-- What is shared does not depend on registers and stack. -/
theorem Shares.of_machine {program : Program} {state : Interpreter} {machine after : Machine}
    (shares : Shares program state machine) (input : after.input = machine.input)
    (output : after.output = machine.output) (data : after.data = machine.data) :
    Shares program state after where
  input := input.trans shares.input
  output := output.trans shares.output
  unbounded := shares.unbounded
  procedures := shares.procedures
  declared := shares.declared
  words := data ▸ shares.words

/-! ### Reading and writing variables -/

theorem idxOf?_slots_eq_none {procedure : Procedure} {name : String} :
    (Frame.slots procedure).idxOf? name = none ↔ procedure.owns name = false := by
  rw [List.idxOf?_eq_none_iff, Frame.mem_slots, Bool.not_eq_true]

section Frames

variable {procedure : Procedure} {base : Int} {globals scope : Scope}
variable {stack : Int → Option Word} {name : String}

/-- Writing a name of the procedure to its slot. Two names never share a slot. -/
theorem FrameAgrees.insert_owned {index : Nat} {value : Int32}
    (agrees : FrameAgrees procedure base globals scope stack)
    (slot : (Frame.slots procedure).idxOf? name = some index) :
    FrameAgrees procedure base globals (scope.insert name value)
      (Function.update stack (base + index) (some (.number value))) where
  owned := by
    intro other place slot'
    by_cases same : name = other
    · subst same
      cases slot.symm.trans slot'
      exact ⟨value, by simp, by simp⟩
    · obtain ⟨value', bound, held⟩ := agrees.owned other place slot'
      have apart : base + place ≠ base + index := by
        intro equal
        have equal : place = index := by omega
        subst equal
        exact same (Frame.eq_of_idxOf?_slots slot slot')
      exact ⟨value', by simp [same, bound], by rw [Function.update_of_ne apart, held]⟩
  other := by
    intro other value' bound foreign
    have apart : name ≠ other := by
      rintro rfl
      rw [idxOf?_slots_eq_none.2 foreign] at slot
      cases slot
    rw [scope_getElem?_insert, if_neg apart] at bound
    exact agrees.other other value' bound foreign

/-- Binding a name to zero that is bound nowhere. -/
theorem FrameAgrees.insert_unbound (agrees : FrameAgrees procedure base globals scope stack)
    (foreign : procedure.owns name = false) (unbound : name ∉ globals) :
    FrameAgrees procedure base globals (scope.insert name 0) stack where
  owned := by
    intro other index slot
    have apart : name ≠ other := by
      rintro rfl
      rw [idxOf?_slots_eq_none.2 foreign] at slot
      cases slot
    simpa [apart] using agrees.owned other index slot
  other := by
    intro other value bound foreign'
    by_cases same : name = other
    · subst same
      simp only [scope_getElem?_insert, if_true, Option.some.injEq] at bound
      exact ⟨bound.symm, unbound⟩
    · rw [scope_getElem?_insert, if_neg same] at bound
      exact agrees.other other value bound foreign'

end Frames

section Variables

variable {program : Program} {frame : Option Frame} {position : Int}
variable {state : Interpreter} {machine after : Machine} {name : String} {value : Int32}

/-- A state with another value of a global name. -/
def withGlobal (state : Interpreter) (name : String) (value : Int32) : Interpreter :=
  { state with
    environment := { state.environment with
      globals := state.environment.globals.insert name value } }

/-- A state with another call scope. -/
def withScope (state : Interpreter) (scope : Option Scope) : Interpreter :=
  { state with environment := { state.environment with frame := scope } }

theorem Shares.withScope (shares : Shares program state machine) (scope : Option Scope) :
    Shares program (withScope state scope) machine :=
  { shares with }

/-- A global variable gets a value. In a call the variable has one already. -/
theorem Agrees.withGlobal (agrees : Agrees program frame position state machine)
    (known : frame.isSome → name ∈ state.environment.globals)
    (pointer : after.registers .stackPointer = .stack position)
    (input : after.input = machine.input) (output : after.output = machine.output)
    (stack : after.stack = machine.stack)
    (data : ∀ other ∈ program.globalNames, after.data (.global other) =
      if name = other then some (.number value) else machine.data (.global other)) :
    Agrees program frame position (withGlobal state name value) after ∧
      SameGlobals frame state (withGlobal state name value) := by
  have same (called : frame.isSome) (other : String) :
      other ∈ state.environment.globals.insert name value ↔
        other ∈ state.environment.globals := by
    rw [scope_mem_insert, or_iff_right_iff_imp]
    rintro rfl
    exact known called
  refine ⟨{
    pointer
    input := input.trans agrees.input
    output := output.trans agrees.output
    unbounded := agrees.unbounded
    procedures := agrees.procedures
    declared := fun other listed =>
      (scope_mem_insert _ _ _ _).2 (.inr (agrees.declared other listed))
    words := ?_
    scope := ?_ }, same⟩
  · intro other listed
    rw [data other listed]
    simp only [MiniPascal.withGlobal, scope_getElem?_insert]
    split
    · rfl
    · exact agrees.words other listed
  · rw [stack]
    cases frame with
    | none => exact agrees.scope
    | some frame =>
        obtain ⟨scope, current, framed⟩ := agrees.scope
        exact ⟨scope, current, framed.of_globals (same rfl)⟩

/-- The call scope changes. -/
theorem Agrees.withScope {scope : Scope} {frame : Frame}
    (agrees : Agrees program (some frame) position state machine)
    (pointer : after.registers .stackPointer = .stack position)
    (input : after.input = machine.input) (output : after.output = machine.output)
    (data : after.data = machine.data)
    (framed : FrameAgrees frame.procedure (position + frame.height) state.environment.globals
      scope after.stack) :
    Agrees program (some frame) position (withScope state (some scope)) after where
  toShares := (agrees.toShares.of_machine input output data).withScope _
  pointer := pointer
  scope := ⟨scope, rfl, framed⟩

/-- Replaces the names that a running program knows. -/
def withEnvironment (state : Interpreter) (environment : Environment) : Interpreter :=
  { state with environment }

theorem declare_of_main (main : state.environment.frame = none) :
    withEnvironment state (state.environment.declare name value) =
      MiniPascal.withGlobal state name value := by
  simp only [withEnvironment, Environment.declare, MiniPascal.withGlobal, main]

theorem declare_of_call {scope : Scope} (call : state.environment.frame = some scope) :
    withEnvironment state (state.environment.declare name value) =
      MiniPascal.withScope state (some (scope.insert name value)) := by
  rw [Environment.declare, call]
  rfl

/-- Reading a variable gives the number in its word. -/
theorem Agrees.get (agrees : Agrees program frame position state machine)
    (visible : Visible program frame name) :
    wordOf? frame position machine name = some (.number (state.environment.get name).1) ∧
      Agrees program frame position
        (withEnvironment state (state.environment.get name).2) machine ∧
      SameGlobals frame state (withEnvironment state (state.environment.get name).2) := by
  unfold Environment.get
  cases frame with
  | none =>
      have main : state.environment.frame = none := agrees.scope
      have word := agrees.words name (visible rfl)
      have looked : state.environment.lookup? name = state.environment.globals[name]? := by
        rw [Environment.lookup?, main]
        rfl
      rw [looked]
      cases bound : state.environment.globals[name]? with
      | some value =>
          rw [bound] at word
          exact ⟨word, agrees, .refl _ _⟩
      | none =>
          rw [bound] at word
          simp only [declare_of_main main]
          refine ⟨word, agrees.withGlobal (fun called => by cases called) agrees.pointer rfl rfl rfl
            fun other _ => ?_⟩
          split
          · next same => rw [← same]; exact word
          · rfl
  | some frame =>
      obtain ⟨scope, call, framed⟩ := agrees.scope
      have looked : state.environment.lookup? name =
          (scope[name]?).or state.environment.globals[name]? := by
        rw [Environment.lookup?, call]
        rfl
      rw [looked]
      cases slot : (Frame.slots frame.procedure).idxOf? name with
      | some index =>
          obtain ⟨value, bound, held⟩ := framed.owned name index slot
          rw [bound]
          refine ⟨?_, agrees, .refl _ _⟩
          simpa [wordOf?, slot?, slot, Int.add_assoc] using held
      | none =>
          have foreign := idxOf?_slots_eq_none.1 slot
          have absent : slot? (some frame) name = none := by simp [slot?, slot]
          have word := agrees.words name (visible absent)
          have same : wordOf? (some frame) position machine name = machine.data (.global name) := by
            rw [wordOf?, absent]
          rw [same, word]
          cases bound : scope[name]? with
          | some value =>
              obtain ⟨rfl, unbound⟩ := framed.other name value bound foreign
              rw [Std.TreeMap.getElem?_eq_none unbound]
              exact ⟨rfl, agrees, .refl _ _⟩
          | none =>
              cases global : state.environment.globals[name]? with
              | some value => exact ⟨rfl, agrees, .refl _ _⟩
              | none =>
                  have unbound : name ∉ state.environment.globals := by
                    simp [Std.TreeMap.mem_iff_isSome_getElem?, global]
                  simp only [Option.or_none, declare_of_call call]
                  exact ⟨rfl, agrees.withScope agrees.pointer rfl rfl rfl
                    (framed.insert_unbound foreign unbound), .refl _ _⟩

/-- Storing to a global word gives its variable a value. -/
theorem Agrees.stored_global (agrees : Agrees program frame position state machine)
    (absent : slot? frame name = none)
    (known : frame.isSome → name ∈ state.environment.globals)
    (held : machine.registers .accumulator = .number value) :
    Agrees program frame position (MiniPascal.withGlobal state name value)
        (stored frame position machine name) ∧
      SameGlobals frame state (MiniPascal.withGlobal state name value) := by
  have apart : Register.stackPointer ≠ Register.scratch := by decide
  simp only [stored, absent]
  refine agrees.withGlobal known ?_ rfl rfl rfl fun other _ => ?_
  · exact (set_of_ne apart machine (.data (.global name))).trans agrees.pointer
  · simp only [Function.update_apply, held, global_injective.eq_iff, eq_comm]

/-- Storing to a slot gives its name a value. -/
theorem Agrees.stored_slot {frame : Frame} {scope : Scope} {index : Nat}
    (agrees : Agrees program (some frame) position state machine)
    (framed : FrameAgrees frame.procedure (position + frame.height) state.environment.globals
      scope machine.stack)
    (slot : (Frame.slots frame.procedure).idxOf? name = some index)
    (held : machine.registers .accumulator = .number value) :
    Agrees program (some frame) position
      (MiniPascal.withScope state (some (scope.insert name value)))
      (stored (some frame) position machine name) := by
  have found : slot? (some frame) name = some (frame.height + index) := by simp [slot?, slot]
  simp only [stored, found, held]
  refine agrees.withScope agrees.pointer rfl rfl rfl ?_
  have written : FrameAgrees _ _ _ (scope.insert name value) _ := framed.insert_owned slot
  simpa [Int.add_assoc] using written

/-- Assigning to a variable stores to its word, unless a call creates a new name. -/
theorem Agrees.set (agrees : Agrees program frame position state machine)
    (writable : frame.isSome → slot? frame name = none → name ∈ program.globals)
    (held : machine.registers .accumulator = .number value) :
    Agrees program frame position
        (withEnvironment state (state.environment.set name value))
        (stored frame position machine name) ∧
      SameGlobals frame state (withEnvironment state (state.environment.set name value)) := by
  cases frame with
  | none =>
      have main : state.environment.frame = none := agrees.scope
      have same : withEnvironment state (state.environment.set name value) =
          MiniPascal.withGlobal state name value := by
        simp only [withEnvironment, Environment.set, MiniPascal.withGlobal, main]
      rw [same]
      exact agrees.stored_global rfl (fun called => by cases called) held
  | some frame =>
      obtain ⟨scope, call, framed⟩ := agrees.scope
      cases slot : (Frame.slots frame.procedure).idxOf? name with
      | some index =>
          obtain ⟨old, bound, -⟩ := framed.owned name index slot
          have inside : name ∈ scope := by
            simp [Std.TreeMap.mem_iff_isSome_getElem?, bound]
          have same : withEnvironment state (state.environment.set name value) =
              MiniPascal.withScope state (some (scope.insert name value)) := by
            simp only [withEnvironment, Environment.set, MiniPascal.withScope, call, if_pos inside]
          rw [same]
          exact ⟨agrees.stored_slot framed slot held, .refl _ _⟩
      | none =>
          have absent : slot? (some frame) name = none := by simp [slot?, slot]
          have known := agrees.declared name (writable rfl absent)
          have outside : name ∉ scope := by
            intro inside
            obtain ⟨old, bound⟩ := Option.isSome_iff_exists.1
              (Std.TreeMap.mem_iff_isSome_getElem?.1 inside)
            exact (framed.other name old bound (idxOf?_slots_eq_none.1 slot)).2 known
          have same : withEnvironment state (state.environment.set name value) =
              MiniPascal.withGlobal state name value := by
            simp only [withEnvironment, Environment.set, MiniPascal.withGlobal, call,
              if_neg outside, if_pos known]
          rw [same]
          exact agrees.stored_global absent (fun _ => known) held

/-- Binding a variable in the current scope stores to its word if the scope is that of the word. -/
theorem Agrees.declare (agrees : Agrees program frame position state machine)
    (writable : frame.isSome → slot? frame name ≠ none)
    (held : machine.registers .accumulator = .number value) :
    Agrees program frame position
        (withEnvironment state (state.environment.declare name value))
        (stored frame position machine name) ∧
      SameGlobals frame state (withEnvironment state (state.environment.declare name value)) := by
  cases frame with
  | none =>
      rw [declare_of_main agrees.scope]
      exact agrees.stored_global rfl (fun called => by cases called) held
  | some frame =>
      obtain ⟨scope, call, framed⟩ := agrees.scope
      rw [declare_of_call call]
      cases slot : (Frame.slots frame.procedure).idxOf? name with
      | some index => exact ⟨agrees.stored_slot framed slot held, .refl _ _⟩
      | none => exact absurd (by simp [slot?, slot]) (writable rfl)

end Variables

/-- The first word above a frame and its temporary words. -/
def frameEnd (frame : Option Frame) (position : Int) : Int :=
  match frame with
  | none => position
  | some frame => position + frame.height + (Frame.slots frame.procedure).length

/-- A store stays inside the frame. -/
theorem kept_stored (frame : Option Frame) (position : Int) (machine : Machine) (name : String) :
    Kept (frameEnd frame position) machine (stored frame position machine name) := by
  unfold stored
  cases slot : slot? frame name with
  | none =>
      have apart : Register.returnAddress ≠ Register.scratch := by decide
      exact {
        returnAddress := set_of_ne apart machine (.data (.global name))
        stack := fun _ _ => rfl }
  | some index =>
      refine { returnAddress := rfl, stack := fun place above => Function.update_of_ne ?_ _ _ }
      cases frame with
      | none => cases slot
      | some frame =>
          obtain ⟨offset, found, rfl⟩ := Option.map_eq_some_iff.1 slot
          obtain ⟨short, -⟩ := List.idxOf?_eq_some_iff.1 found
          simp only [frameEnd] at above
          omega

end MiniPascal
