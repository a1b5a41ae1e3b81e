import MiniPascal.Proofs.Simulation.Stmt

/-!
# The code of procedures follows the interpreter

A call starts with a scope and a frame that bind the same names to the same values, so the code of
the body follows the body, and the word that the caller fetches is the last value of the
procedure's own name. By induction on fuel, this makes the code of every procedure `Serves` the
calls of the interpreter.
-/

namespace MiniPascal

open Interpreter (Exec Invoke executeWith)
open Machine

/-! ### The first scope of a call -/

theorem map_snd_zip (names : List String) (values : List Int32) :
    (names.zip values).map (·.2) = values.take names.length := by
  induction names generalizing values with
  | nil => simp
  | cons name names ih =>
      cases values with
      | nil => rfl
      | cons value values => simp [ih]

theorem values_eq_bindings (procedure : Procedure) (values : List Int32) :
    (procedure.bindings values).reverse.map (·.2) =
      List.replicate procedure.locals.length 0 ++
        ((values.take procedure.params.length).reverse ++ [0]) := by
  simp [Procedure.bindings, List.map_reverse, Function.comp_def, map_snd_zip, List.map_const']

/-- The first word of a name holds the value of the first binding of the name. -/
theorem HoldsNumbers.find {stack : Int → Option Word} {base : Int} {name : String} {index : Nat}
    {bindings : List (String × Int32)} (holds : HoldsNumbers stack base (bindings.map (·.2)))
    (slot : (bindings.map (·.1)).idxOf? name = some index) :
    ∃ value, (bindings.find? (·.1 = name)).map (·.2) = some value ∧
      stack (base + index) = some (.number value) := by
  induction bindings generalizing base index with
  | nil => cases slot
  | cons binding rest ih =>
      rw [List.map_cons, List.idxOf?_cons] at slot
      by_cases same : binding.1 = name
      · simp only [same, beq_self_eq_true, if_true, Option.some.injEq] at slot
        subst slot
        exact ⟨binding.2, by simp [same], by simpa using holds.1⟩
      · simp only [beq_iff_eq, same, if_false, Option.map_eq_some_iff] at slot
        obtain ⟨place, slot, rfl⟩ := slot
        obtain ⟨value, found, held⟩ := ih holds.2 slot
        refine ⟨value, by simpa [same] using found, ?_⟩
        rw [← held]
        congr 1
        omega

/-- A call starts with a scope that agrees with the words of its frame. -/
theorem frameAgrees_frame {procedure : Procedure} {values : List Int32} {base : Int}
    {globals : Scope} {stack : Int → Option Word}
    (enough : procedure.params.length ≤ values.length)
    (holds : HoldsNumbers stack base (List.replicate procedure.locals.length 0 ++
      ((values.take procedure.params.length).reverse ++ [0]))) :
    FrameAgrees procedure base globals (procedure.frame values) stack := by
  rw [← values_eq_bindings] at holds
  have looked (name : String) : (procedure.frame values)[name]? =
      ((procedure.bindings values).reverse.find? (·.1 = name)).map (·.2) := by
    rw [frame_eq_bindAll, getElem?_bindAll]
    simp
  constructor
  · intro name index slot
    rw [slots_eq_bindings enough] at slot
    obtain ⟨value, found, held⟩ := holds.find slot
    exact ⟨value, (looked name).trans found, held⟩
  · intro name value bound foreign
    rw [looked] at bound
    obtain ⟨binding, found, -⟩ := Option.map_eq_some_iff.1 bound
    have listed : name ∈ Frame.slots procedure := by
      rw [slots_eq_bindings enough]
      have same : binding.1 = name := by simpa using List.find?_some found
      exact same ▸ List.mem_map_of_mem (List.mem_of_find?_eq_some found)
    rw [Frame.mem_slots, foreign] at listed
    cases listed

variable {program : Program} {lines rest : List Line} {position : Int}
variable {state : Interpreter} {machine : Machine} {procedure : Procedure}

/-! ### Entering and leaving -/

/-- The code that pushes a zero for each local. -/
theorem runs_clearLocals {count : Nat} {numbers : List Int32}
    (here : machine.ahead lines = Code.lines (Code.clearLocals count) ++ rest)
    (shares : Shares program state machine)
    (pointer : machine.registers .stackPointer = .stack position)
    (holds : HoldsNumbers machine.stack position numbers) :
    ∃ after, Runs lines machine after rest ∧ Shares program state after ∧
      after.registers .stackPointer = .stack (position - count) ∧
      HoldsNumbers after.stack (position - count) (List.replicate count 0 ++ numbers) ∧
      Kept position machine after := by
  induction count generalizing machine position numbers with
  | zero =>
      exact ⟨machine, ⟨.refl, here⟩, shares, by simpa using pointer, by simpa using holds,
        .refl _ _⟩
  | succ count ih =>
      simp only [Code.clearLocals, Code.lines_append, List.append_assoc] at here
      have zeroed : Runs lines machine (machine.set .accumulator (.number 0)) _ :=
        runs_instr here rfl rfl
      have untouched := untouched_accumulator machine (.number 0)
      have pushed := runs_push zeroed.ahead (untouched.pointer.trans pointer) (by decide)
      rw [set_self] at pushed
      have holds' : HoldsNumbers (machine.set .accumulator (.number 0)).stack position numbers :=
        holds
      obtain ⟨after, run, shares', pointer', held, kept⟩ := ih pushed.ahead
        (shares.of_machine rfl rfl rfl) (by simp [Machine.pushed]) (holds'.pushed 0)
      have same : position - ((count + 1 : Nat) : Int) = position - 1 - count := by omega
      rw [same]
      refine ⟨after, zeroed.trans (pushed.trans run), shares', pointer', ?_, ?_⟩
      · rw [List.replicate_succ', List.append_assoc]
        exact held
      · exact (Kept.of_untouched untouched position).trans
          ((kept_pushed _ position _).trans kept (by omega)) (Int.le_refl _)

/-- The value that a call gives is that of the first word of the procedure's name. -/
theorem idxOf?_name (procedure : Procedure)
    (plain : (procedure.locals ++ procedure.params).contains procedure.name = false) :
    (Frame.slots procedure).idxOf? procedure.name =
      some (procedure.locals.length + procedure.params.length) := by
  have absent : procedure.name ∉ procedure.locals ∧ procedure.name ∉ procedure.params := by
    simpa using plain
  exact Frame.idxOf?_slots_eq_last.2 ⟨rfl, absent⟩

theorem frameEnd_procedure (procedure : Procedure) (position : Int) :
    frameEnd (some { procedure }) position =
      position + procedure.locals.length + procedure.params.length + 1 := by
  simp [frameEnd, Frame.slots]
  omega

/-- Behind the code of a body, the slot of the result gets the last value of the procedure's
name. -/
theorem runs_copyResult {scope : Scope}
    (here : machine.ahead lines = Code.lines (Code.copyResult procedure) ++ rest)
    (agrees : Agrees program (some { procedure }) position state machine)
    (current : state.environment.frame = some scope) :
    ∃ after, Runs lines machine after rest ∧ Shares program state after ∧
      after.registers .stackPointer = .stack position ∧
      after.stack (position + procedure.locals.length + procedure.params.length) =
        some (.number (scope[procedure.name]?.getD 0)) ∧
      Kept (frameEnd (some { procedure }) position) machine after := by
  obtain ⟨scope', current', framed⟩ := agrees.scope
  cases current.symm.trans current'
  have owned : ∃ index, (Frame.slots procedure).idxOf? procedure.name = some index := by
    rw [← Option.isSome_iff_exists, Option.isSome_iff_ne_none, Ne, idxOf?_slots_eq_none]
    simp [Procedure.owns]
  obtain ⟨index, slot⟩ := owned
  obtain ⟨value, bound, held⟩ := framed.owned procedure.name index slot
  simp only [Int.natCast_zero, Int.add_zero] at held
  rw [bound]
  rw [Code.copyResult] at here
  split at here
  · simp only [Code.lines_append, List.append_assoc] at here
    have found : slot? (some { procedure }) procedure.name = some index := by simp [slot?, slot]
    have word : wordOf? (some { procedure }) position machine procedure.name =
        some (.number value) := by
      simpa [wordOf?, found] using held
    obtain ⟨loaded, run, untouched, accumulator⟩ := runs_load here agrees.pointer
      (fun absent => by rw [found] at absent; cases absent) word
    have pointer := untouched.pointer.trans agrees.pointer
    have copied := runs_storeSlot run.ahead pointer
    refine ⟨_, run.trans copied, (agrees.toShares.of_memory untouched.toSameMemory).of_machine rfl
      rfl rfl, pointer, ?_, ?_⟩
    · simp only [accumulator, Function.update_apply, Option.getD_some]
      rw [if_pos (by omega)]
    · refine { returnAddress := untouched.returnAddress, stack := fun place above => ?_ }
      rw [frameEnd_procedure] at above
      exact (Function.update_of_ne (by simp only; omega) _ _).trans (congrFun untouched.stack place)
  · next plain =>
      rw [Bool.not_eq_true] at plain
      cases (idxOf?_name procedure plain).symm.trans slot
      refine ⟨machine, ⟨.refl, here⟩, agrees.toShares, agrees.pointer, ?_, .refl _ _⟩
      rw [Option.getD_some, ← held]
      congr 1
      omega

/-! ### Calls -/

/-- The body of a call runs in a scope of its own. -/
theorem Follows.inScope {body : Exec Unit} {frame : Scope} {name : String}
    {post : Unit → Interpreter → Machine → Prop}
    (follows : Follows lines machine (body (withScope state (some frame))) post) :
    Follows lines machine (Interpreter.inScope frame name body state) fun value state' after =>
      ∃ inner, post () inner after ∧
        value = (inner.environment.frame.getD ∅)[name]?.getD 0 ∧
        state' = withScope inner state.environment.frame := by
  cases result : body (withScope state (some frame)) with
  | ok value inner =>
      have same : Interpreter.inScope frame name body state =
          .ok ((inner.environment.frame.getD ∅)[name]?.getD 0)
            (withScope inner state.environment.frame) := by
        have run : body.run { state with environment := (state.environment.enter frame).2 } =
            .ok value inner := result
        simp only [Interpreter.inScope, run]
        rfl
      rw [same]
      rw [result] at follows
      obtain ⟨after, run, holds⟩ := follows
      exact ⟨after, run, inner, holds, rfl, rfl⟩
  | error halt inner =>
      have same : Interpreter.inScope frame name body state =
          .error halt (withScope inner state.environment.frame) := by
        have run : body.run { state with environment := (state.environment.enter frame).2 } =
            .error halt inner := result
        simp only [Interpreter.inScope, run]
        rfl
      rw [same]
      rw [result] at follows
      cases halt with
      | outOfFuel => trivial
      | error cause =>
          obtain ⟨after, run, trapped⟩ := follows
          exact ⟨after, run, trapped.output, trapped.fault⟩

/-- The last instruction of a procedure goes on behind the call. -/
theorem steps_return {back : Nat} {rest : List Line}
    (here : machine.ahead lines = .instr (.jr .returnAddress) :: rest)
    (address : machine.registers .returnAddress = .code back) :
    Steps lines machine { machine with place := back } :=
  .single (by simp only [Machine.step, getElem?_of_ahead here, Machine.execute, address])

/-- The code of procedures serves the calls of the interpreter, however much fuel it has. -/
theorem serves_invoke (layout : Layout program lines)
    (writable : ∀ procedure ∈ program.procedures, Writable program (some { procedure })
      procedure.body.expressions procedure.body.assigned procedure.body.received)
    (fuel : Nat) : Serves program lines (Interpreter.invoke fuel) := by
  induction fuel with
  | zero => exact fun _ _ _ _ _ _ _ _ _ _ _ _ _ _ _ => trivial
  | succ fuel ih =>
      intro procedure member values state machine position back labels rest enough shares pointer
        address holds here
      simp only [Code.procedure, Code.lines_append, List.append_assoc, Code.lines_cons,
        Code.lines_nil, List.cons_append, List.nil_append, List.cons.injEq] at here
      obtain ⟨entered, clear, shares', pointer', holds', kept⟩ :=
        runs_clearLocals here.2 shares pointer holds
      have agrees : Agrees program (some { procedure }) (position - procedure.locals.length)
          (withScope state (some (procedure.frame values))) entered := {
        toShares := shares'.withScope _
        pointer := pointer'
        scope := ⟨_, rfl, by simpa using frameAgrees_frame enough holds'⟩ }
      have executes := executes_statement layout ih fuel procedure.body (some { procedure })
        (position - procedure.locals.length) labels (writable procedure member) _ _ _ agrees
        clear.ahead
      refine .of_steps clear.steps (executes.inScope.continue_steps ?_)
      rintro value state' after run ⟨inner, ⟨-, done⟩, rfl, rfl⟩
      obtain ⟨scope, current, -⟩ := done.agrees.scope
      obtain ⟨copied, copy, sharesCopied, pointerCopied, result, keptCopied⟩ :=
        runs_copyResult done.ahead done.agrees current
      have written : ∀ place, position - procedure.locals.length ≤ place →
          place < position - procedure.locals.length + procedure.locals.length →
          (copied.stack place).isSome := by
        intro place above below
        have whole : Steps lines entered copied := run.trans copy.steps
        refine whole.isSome_stack (holds'.isSome above ?_)
        simp only [List.length_append, List.length_replicate]
        omega
      obtain ⟨dropped, drop, pointerDropped, addressDropped, same⟩ :=
        runs_discard copy.ahead pointerCopied written
      have keptBody := done.kept.trans keptCopied (Int.le_refl _)
      rw [frameEnd_procedure] at keptBody
      have address' : dropped.registers .returnAddress = .code back := by
        rw [addressDropped, keptBody.returnAddress, kept.returnAddress, address]
      refine ⟨{ dropped with place := back },
        copy.steps.trans (drop.steps.trans (steps_return drop.ahead address')), rfl,
        (sharesCopied.of_memory (same.trans (untouched_place dropped back).toSameMemory)).withScope
          _, ?_, ?_, ?_, rfl, done.globals rfl⟩
      · rw [pointerDropped, Int.sub_add_cancel]
      · rw [Int.sub_add_cancel] at result
        simp only [same.stack, result, current, Option.getD_some]
      · refine { returnAddress := address'.trans address.symm, stack := fun place above => ?_ }
        simp only [same.stack]
        rw [keptBody.stack place (by omega), kept.stack place (by omega)]

end MiniPascal
