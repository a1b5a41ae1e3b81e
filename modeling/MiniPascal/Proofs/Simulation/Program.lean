import MiniPascal.Proofs.Compile.Plain
import MiniPascal.Proofs.Simulation.Procedure

/-!
# The code of programs follows the interpreter

What the simulation of statements and procedures relies on holds of every program that can be
compiled, if its procedures write only where a call scope and a frame agree. The machine at the
entry of such a program then reaches the end of the program or a trap, as the interpreter does.
-/

namespace MiniPascal

open Interpreter (Exec)
open Machine

variable {program : Program} {procedure : Procedure} {name : String}

/-! ### The names of a program -/

/-- A name has a slot in the frame of a procedure if the procedure owns it. -/
theorem slot?_eq_none : slot? (some { procedure }) name = none ↔ procedure.owns name = false := by
  simp [slot?, Frame.mem_slots]

theorem visible_of_touched (member : procedure ∈ program.procedures)
    (touched : name ∈ procedure.body.touched) : Visible program (some { procedure }) name := by
  intro absent
  refine mem_globalNames.2 (.inr (.inr ⟨procedure, member, List.mem_filter.2 ⟨touched, ?_⟩⟩))
  rw [slot?_eq_none.1 absent]
  rfl

theorem writable_main (fault : program.fault? = none) :
    Writable program none program.body.expressions program.body.assigned
      program.body.received where
  admissible part listed := {
    sound := sound_of_fault fault (.inl listed)
    visible := by
      rintro name rfl -
      exact mem_globalNames.2 (.inr (.inl (mem_touched_of_var listed))) }
  assigned name listed :=
    ⟨fun _ => mem_globalNames.2 (.inr (.inl (mem_touched_of_target (.inl listed)))),
      fun called => by cases called⟩
  received name listed :=
    ⟨fun _ => mem_globalNames.2 (.inr (.inl (mem_touched_of_target (.inr listed)))),
      fun called => by cases called⟩

theorem writable_procedure (fault : program.fault? = none) (writes : program.WritesOwn)
    (member : procedure ∈ program.procedures) :
    Writable program (some { procedure }) procedure.body.expressions procedure.body.assigned
      procedure.body.received where
  admissible part listed := {
    sound := sound_of_fault fault (.inr ⟨procedure, member, listed⟩)
    visible := by
      rintro name rfl
      exact visible_of_touched member (mem_touched_of_var listed) }
  assigned name listed := by
    refine ⟨visible_of_touched member (mem_touched_of_target (.inl listed)), fun _ absent => ?_⟩
    rcases writes.assigned procedure member name listed with owned | declared
    · rw [slot?_eq_none, owned] at absent
      cases absent
    · exact declared
  received name listed := by
    refine ⟨visible_of_touched member (mem_touched_of_target (.inr listed)), fun _ absent => ?_⟩
    rw [slot?_eq_none, writes.received procedure member name listed] at absent
    cases absent

/-! ### The lines of a program -/

/-- The code of each procedure of a list is somewhere in the code of the list. -/
theorem suffix_bodies {procedures bodies : List Procedure} {labels : Nat}
    (member : procedure ∈ bodies) : ∃ labels' rest,
      Code.lines (Code.procedure procedures labels' procedure) ++ rest <:+
        Code.lines (Code.bodies procedures labels bodies) := by
  induction bodies generalizing labels with
  | nil => cases member
  | cons first others ih =>
      rw [Code.bodies, Code.lines_append]
      rcases List.mem_cons.1 member with rfl | member
      · exact ⟨labels, _, List.suffix_refl _⟩
      · obtain ⟨labels', rest, found⟩ := ih member
        exact ⟨labels', rest, found.trans (List.suffix_append _ _)⟩

/-- A global name has a word in the data that starts at zero. -/
theorem wordAt?_linesOf (listed : name ∈ program.globalNames) :
    wordAt? (linesOf program) (.global name) = some 0 := by
  have found (names : List String) (listed : name ∈ names) :
      wordAt? (names.map fun name => .word (.global name) 0) (.global name) = some 0 := by
    induction names with
    | nil => cases listed
    | cons other rest ih =>
        rw [wordAt?, List.map_cons, List.findSome?_cons]
        by_cases same : other = name
        · simp [same]
        · have apart : Label.global other ≠ Label.global name :=
            fun equal => same (global_injective equal)
          simp only [if_neg apart]
          exact ih ((List.mem_cons.1 listed).resolve_left (Ne.symm same))
  have front : wordAt? (linesOf program) (.global name) =
      wordAt? ((program.globalNames.map fun name => .word (.global name) 0) ++
        Code.lines (Code.program program)) (.global name) := rfl
  rw [front, wordAt?, List.findSome?_append]
  exact (congrArg (Option.or · _) (found _ listed)).trans rfl

theorem textAt?_linesOf (program : Program) :
    textAt? (linesOf program) .newLine = some "\\n" :=
  rfl

theorem layout_linesOf (fault : program.fault? = none) : Layout program (linesOf program) where
  distinct := nodup_of_fault fault
  words name listed := by
    rw [wordAt?_linesOf listed]
    rfl
  newLine := textAt?_linesOf program
  bodies procedure member := by
    obtain ⟨labels, rest, found⟩ := suffix_bodies member
    refine ⟨labels, rest, found.trans ?_⟩
    rw [linesOf, Code.program, Code.lines_append, ← List.append_assoc]
    exact List.suffix_append _ _

/-! ### The run of a program -/

/-- A fresh interpreter with an input. -/
def Interpreter.fresh (input : Input) : Interpreter :=
  { input }

/-- The state in which the main statement of a program starts. -/
def Interpreter.prepared (program : Program) (input : Input) : Interpreter :=
  { environment := {
      globals := bindAll ∅ (program.globals.map fun name => (name, 0))
      procedures := program.procedures.reverse }
    input }

theorem run_fresh (fuel : Nat) (program : Program) (input : Input) :
    Interpreter.run fuel program (.fresh input) =
      Interpreter.execute fuel program.body (.prepared program input) := by
  rw [run_eq fuel program rfl]
  simp only [Interpreter.prepare, Interpreter.fresh, Interpreter.prepared, List.append_nil]

theorem agrees_prepared {machine : Machine} {input : Input}
    (started : start? (linesOf program) input = some machine) :
    Agrees program none 0 (.prepared program input) machine := by
  obtain ⟨place, -, rfl⟩ := Option.map_eq_some_iff.1 started
  have bound (name : String) :
      (Interpreter.prepared program input).environment.globals[name]? =
        if name ∈ program.globals then some 0 else none := by
    simp only [Interpreter.prepared, getElem?_bindAll, ← List.map_reverse, List.find?_map,
      Function.comp_def]
    by_cases listed : name ∈ program.globals
    · have found : (program.globals.reverse.find? (· = name)).isSome :=
        List.find?_isSome.2 ⟨name, List.mem_reverse.2 listed, by simp⟩
      obtain ⟨other, found⟩ := Option.isSome_iff_exists.1 found
      simp [found, listed]
    · have missed : program.globals.reverse.find? (· = name) = none := by
        refine List.find?_eq_none.2 fun other member same => listed ?_
        rw [decide_eq_true_iff] at same
        exact same ▸ List.mem_reverse.1 member
      simp [missed, listed]
  exact {
    input := rfl
    output := rfl
    unbounded := rfl
    procedures := rfl
    declared := by
      intro name listed
      simp [Std.TreeMap.mem_iff_isSome_getElem?, bound, listed]
    words := by
      intro name listed
      simp only [wordAt?_linesOf listed, bound name]
      split <;> rfl
    pointer := by simp [stackRegister_eq]
    scope := rfl }

/-- The machine starts behind the label of the entry. -/
theorem start?_linesOf (fault : program.fault? = none) (input : Input) :
    ∃ machine, start? (linesOf program) input = some machine ∧
      machine.ahead (linesOf program) = .label .main ::
        (Code.lines (Code.statement program.procedures.reverse none 0 program.body) ++
          (Code.lines (Code.service Generator.exit) ++
            Code.lines (Code.bodies program.procedures.reverse program.body.labelCount
              program.procedures))) := by
  have split : linesOf program = (Generator.dataLines program ++
      [.directive ".text", .directive ".globl main"]) ++ .label .main ::
        (Code.lines (Code.statement program.procedures.reverse none 0 program.body) ++
          (Code.lines (Code.service Generator.exit) ++
            Code.lines (Code.bodies program.procedures.reverse program.body.labelCount
              program.procedures))) := by
    simp [linesOf, Code.program, Code.label]
  have distinct := (layout_linesOf fault).distinct
  rw [split] at distinct
  have found := idxOf?_label distinct
  rw [← split] at found
  have found : (linesOf program).idxOf? (.label entry) = _ := found
  refine ⟨_, by rw [start?, found]; rfl, ?_⟩
  simp only [Machine.ahead]
  rw [split, List.drop_left]

/-- The machine that executes a program follows the interpreter that runs it. -/
theorem follows_run (fault : program.fault? = none) (writes : program.WritesOwn) (fuel : Nat)
    (input : Input) :
    ∃ machine, start? (linesOf program) input = some machine ∧
      Follows (linesOf program) machine (Interpreter.run fuel program (.fresh input))
        fun _ state after =>
          after.step (linesOf program) = .exit ∧ Agrees program none 0 state after := by
  have layout := layout_linesOf fault
  obtain ⟨machine, started, here⟩ := start?_linesOf fault input
  have agrees := agrees_prepared started
  have entered := runs_label here
  have executes := executes_statement layout
    (serves_invoke layout (fun _ member => writable_procedure fault writes member) fuel) fuel
    program.body none 0 0 (writable_main fault) _ _ _
    (agrees.of_untouched (untouched_place machine _)) entered.ahead
  refine ⟨machine, started, .of_steps entered.steps ?_⟩
  rw [run_fresh]
  refine executes.continue_steps ?_
  rintro - state after - ⟨-, done⟩
  have asked : Runs (linesOf program) after (after.set .accumulator (.number Generator.exit))
      (.instr .syscall :: _) :=
    runs_instr done.ahead rfl rfl
  refine ⟨_, asked.steps, ?_, done.agrees.of_untouched (untouched_accumulator _ _)⟩
  simp only [Machine.step, getElem?_of_ahead asked.ahead, Machine.execute]
  exact serve_exit (set_self _ _ _)

/-- A machine that has come from `start` to the end of a program, as the interpreter has. -/
structure Finished (lines : List Line) (start : Machine) (state : Interpreter)
    (machine : Machine) : Prop where
  exits : machine.step lines = .exit
  output : machine.output = state.output.written
  input : machine.input = state.input
  pointer : machine.registers stackRegister = start.registers stackRegister
  words : ∀ name value, .word (.global name) value ∈ lines →
    machine.data (.global name) = some (.number ((state.environment.global? name).getD 0))

/-- The assembly of a program does what the program does. If the interpreter ends, the machine
that executes the text from the entry on reaches the call that ends the program, with the same
output, the same input left, the stack pointer back where it was and the same values of all global
variables. If the interpreter stops with an error, the machine traps in the division or in the read
that failed, with the same output. -/
theorem compile_correct {program : Program} {text : String} (named : program.Named)
    (compiled : compile program = .ok text) (writes : program.WritesOwn) :
    ∃ lines, Loader.read? text = some lines ∧
      ∀ (fuel : Nat) (input : Input), ∃ machine, start? lines input = some machine ∧
        Follows lines machine (Interpreter.run fuel program (.fresh input))
          fun _ state after => Finished lines machine state after := by
  obtain ⟨fault, rfl⟩ := compile_eq_ok.1 compiled
  refine ⟨linesOf program, read?_compile named compiled, fun fuel input => ?_⟩
  obtain ⟨machine, started, follows⟩ := follows_run fault writes fuel input
  refine ⟨machine, started, follows.continue_steps ?_⟩
  rintro - state after - ⟨exits, agrees⟩
  have pointer := agrees.pointer.trans (agrees_prepared started).pointer.symm
  exact ⟨after, .refl, exits, agrees.output, agrees.input, pointer,
    fun name value word => agrees.words name (mem_globalNames_of_word word)⟩

/-- A recursive function with a parameter of the name of a declared variable, and a procedure that
writes that variable, divides and reads. -/
def sampleProgram : Program where
  globals := ["n", "total"]
  procedures := [
    { name := "fact", params := ["n"], locals := ["rest"],
      body := .ifElse ⟨.le, .var "n", .num 1⟩ (.assign "fact" (.num 1))
        (.block [.assign "rest" (.call "fact" [.binary .sub (.var "n") (.num 1), .num 7]),
          .assign "fact" (.binary .mul (.var "n") (.var "rest"))]) },
    { name := "ask", params := [], locals := ["ask"],
      body := .block [.read "ask",
        .assign "total" (.binary .div (.num (-100)) (.var "ask")),
        .assign "ask" (.compare .lt (.var "ask") (.var "unset"))] }]
  body := .block [.read "n", .loop ⟨.gt, .var "n", .num 0⟩ (.block [
    .write (.call "fact" [.var "n"]), .write (.call "ask" []),
    .assign "n" (.binary .sub (.var "n") (.num 1))])]

theorem compile_correct_sampleProgram :
    sampleProgram.Named ∧ sampleProgram.WritesOwn ∧
      compile sampleProgram = .ok (Line.renderAll (linesOf sampleProgram)) ∧
      ∃ lines, Loader.read? (Line.renderAll (linesOf sampleProgram)) = some lines ∧
        ∀ (fuel : Nat) (input : Input), ∃ machine, start? lines input = some machine ∧
          Follows lines machine (Interpreter.run fuel sampleProgram (.fresh input))
            fun _ state after => Finished lines machine state after := by
  have named : sampleProgram.Named := by
    unfold Program.Named
    decide
  have writes : sampleProgram.WritesOwn := ⟨by decide, by decide⟩
  have compiled := compile_eq_ok.2 ⟨(rfl : sampleProgram.fault? = none), rfl⟩
  exact ⟨named, writes, compiled, compile_correct named compiled writes⟩

end MiniPascal
