import MiniPascal.Proofs.Simulation.Expr
import MiniPascal.Proofs.Tree.Names

/-!
# The code of statements follows the interpreter

By recursion on the tree, and for a loop by induction on how often it may repeat. The body of a
procedure writes only words of its frame and declared global variables, for only those are one
variable in the scope of a call and one word in memory.
-/

namespace MiniPascal

open Interpreter (Exec Invoke testWith repeatWhile executeWith executeAllWith)
open Machine

/-- What a statement needs to be followed: expressions that can be compiled, and targets whose word
is the one that the interpreter writes. -/
structure Writable (program : Program) (frame : Option Frame) (expressions : List Expr)
    (assigned received : List String) : Prop where
  admissible : ∀ part ∈ expressions, Admissible program frame part
  assigned : ∀ name ∈ assigned, Visible program frame name ∧
    (frame.isSome → slot? frame name = none → name ∈ program.globals)
  received : ∀ name ∈ received, Visible program frame name ∧
    (frame.isSome → slot? frame name ≠ none)

theorem writable_append {program : Program} {frame : Option Frame}
    {expressions expressions' : List Expr} {assigned assigned' received received' : List String} :
    Writable program frame (expressions ++ expressions') (assigned ++ assigned')
        (received ++ received') ↔
      Writable program frame expressions assigned received ∧
        Writable program frame expressions' assigned' received' := by
  constructor
  · rintro ⟨parts, targets, reads⟩
    rw [List.forall_mem_append] at parts targets reads
    exact ⟨⟨parts.1, targets.1, reads.1⟩, ⟨parts.2, targets.2, reads.2⟩⟩
  · rintro ⟨first, second⟩
    exact ⟨List.forall_mem_append.2 ⟨first.admissible, second.admissible⟩,
      List.forall_mem_append.2 ⟨first.assigned, second.assigned⟩,
      List.forall_mem_append.2 ⟨first.received, second.received⟩⟩

variable {program : Program} {lines rest : List Line} {frame : Option Frame}
variable {position : Int} {state : Interpreter} {machine : Machine}

theorem position_le_frameEnd (frame : Option Frame) (position : Int) :
    position ≤ frameEnd frame position := by
  cases frame with
  | none => exact Int.le_refl _
  | some frame =>
      simp only [frameEnd]
      omega

/-! ### Control -/

theorem executes_nil : Executes program lines frame position [] (pure ()) := by
  intro state machine rest agrees here
  exact .pure ⟨trivial, here, agrees, .refl _ _, .refl _ _⟩

theorem executes_append {first second : Exec Unit} {code code' : List CodeLine}
    (executes : Executes program lines frame position code first)
    (executes' : Executes program lines frame position code' second) :
    Executes program lines frame position (code ++ code') (do first; second) := by
  intro state machine rest agrees here
  simp only [Code.lines_append, List.append_assoc] at here
  refine (executes state machine _ agrees here).bind ?_
  rintro - middle between - ⟨-, done⟩
  refine (executes' middle between rest done.agrees done.ahead).continue_steps ?_
  rintro - state' after - ⟨-, done'⟩
  exact ⟨after, .refl, trivial, done.trans done' (Int.le_refl _)⟩

/-- The code of a choice runs the branch that the test asks for. -/
theorem executes_choose {number : Nat} {test : Exec Bool} {thenBranch elseBranch : Exec Unit}
    {code thenCode elseCode : List CodeLine} (layout : Layout program lines)
    (tests : Tests program lines frame position (.numbered "else" number) code test)
    (executes : Executes program lines frame position thenCode thenBranch)
    (executes' : Executes program lines frame position elseCode elseBranch) :
    Executes program lines frame position (Code.choose number code thenCode elseCode)
      (do if ← test then thenBranch else elseBranch) := by
  intro state machine rest agrees here
  simp only [Code.choose, Code.lines_append, List.append_assoc] at here
  have target : .label (.numbered "else" number) :: (Code.lines elseCode ++
      .label (.numbered "endif" number) :: rest) <:+ lines := by
    have whole := suffix_of_ahead (List.append_assoc _ _ _ ▸ here)
    exact (List.suffix_cons _ _).trans whole
  refine (tests state machine _ _ agrees here target).bind ?_
  rintro holds middle between - done
  have done := done.mono (position_le_frameEnd frame position)
  cases holds with
  | true =>
      refine (executes middle between _ done.agrees done.ahead).continue_steps ?_
      rintro - state' after - ⟨-, done'⟩
      have jumped := runs_jump layout.distinct done'.ahead rfl
        ((List.suffix_append (_ :: Code.lines elseCode) _).trans target)
      exact ⟨_, jumped.steps, trivial, (done.trans done' (Int.le_refl _)).trans
        (.of_untouched done'.agrees jumped (untouched_place after _)) (Int.le_refl _)⟩
  | false =>
      refine (executes' middle between _ done.agrees done.ahead).continue_steps ?_
      rintro - state' after - ⟨-, done'⟩
      have passed := runs_label done'.ahead
      exact ⟨_, passed.steps, trivial, (done.trans done' (Int.le_refl _)).trans
        (.of_untouched done'.agrees passed (untouched_place after _)) (Int.le_refl _)⟩

/-- Behind its label, the code of a loop repeats the body as long as the test holds. -/
theorem follows_loop {number : Nat} {test : Exec Bool} {body : Exec Unit}
    {code bodyCode : List CodeLine} (layout : Layout program lines)
    (tests : Tests program lines frame position (.numbered "endloop" number) code test)
    (executes : Executes program lines frame position bodyCode body) (fuel : Nat)
    (agrees : Agrees program frame position state machine)
    (here : machine.ahead lines = Code.lines code ++ (Code.lines bodyCode ++
      (.instr (.j (.numbered "loop" number)) :: .label (.numbered "endloop" number) :: rest)))
    (target : .label (.numbered "loop" number) :: (Code.lines code ++ (Code.lines bodyCode ++
      (.instr (.j (.numbered "loop" number)) :: .label (.numbered "endloop" number) :: rest))) <:+
        lines) :
    Follows lines machine (repeatWhile fuel test body state) fun _ state' after =>
      Done program lines frame position (frameEnd frame position) state machine rest state'
        after := by
  induction fuel generalizing state machine with
  | zero => trivial
  | succ fuel ih =>
      have exit : .label (.numbered "endloop" number) :: rest <:+ lines := by
        have whole := suffix_of_ahead (List.append_assoc _ _ _ ▸ here)
        exact (List.suffix_cons _ _).trans whole
      rw [repeatWhile]
      refine (tests state machine _ _ agrees here exit).bind ?_
      rintro holds middle between - done
      have done := done.mono (position_le_frameEnd frame position)
      cases holds with
      | true =>
          refine (executes middle between _ done.agrees done.ahead).bind ?_
          rintro - state' after - ⟨-, done'⟩
          have jumped := runs_jump layout.distinct done'.ahead rfl target
          have again := (done.trans done' (Int.le_refl _)).trans
            (.of_untouched done'.agrees jumped (untouched_place after _)) (Int.le_refl _)
          refine .of_steps jumped.steps
            ((ih again.agrees again.ahead).continue_steps ?_)
          rintro - state'' final - done''
          exact ⟨final, .refl, again.trans done'' (Int.le_refl _)⟩
      | false => exact .pure done

theorem executes_loop {number : Nat} {test : Exec Bool} {body : Exec Unit}
    {code bodyCode : List CodeLine} (layout : Layout program lines)
    (tests : Tests program lines frame position (.numbered "endloop" number) code test)
    (executes : Executes program lines frame position bodyCode body) (fuel : Nat) :
    Executes program lines frame position (Code.loop number code bodyCode)
      (repeatWhile fuel test body) := by
  intro state machine rest agrees here
  simp only [Code.loop, Code.lines_append, List.append_assoc] at here
  have passed := runs_label here
  have entered := untouched_place machine (machine.place + 1)
  have target : machine.ahead lines <:+ lines := List.drop_suffix _ _
  rw [here] at target
  refine .of_steps passed.steps ((follows_loop layout tests executes fuel
    (agrees.of_untouched entered) passed.ahead target).continue_steps ?_)
  rintro - state' after - done
  exact ⟨after, .refl, trivial,
    (Done.of_untouched agrees passed entered).trans done (Int.le_refl _)⟩

/-! ### Input and output -/

/-- The service that reads a number takes it from a line of the input. -/
theorem step_readInteger (here : machine.ahead lines = .instr .syscall :: rest)
    (service : machine.registers .accumulator = .number Generator.readInteger) :
    machine.step lines = match machine.input.readInteger with
      | (.ok value, input) => .next ({ machine with input }.set .accumulator (.number value))
      | (.error _, _) => .trap .reading := by
  rw [Machine.step, getElem?_of_ahead here]
  exact serve_readInteger service

/-- The service that reads a number does what the interpreter does to read one. -/
theorem evaluates_read :
    Evaluates program lines frame position (Code.service Generator.readInteger)
      Interpreter.readInteger := by
  intro state machine rest agrees here
  have asked : Runs lines machine (machine.set .accumulator (.number Generator.readInteger)) _ :=
    runs_instr here rfl rfl
  have untouched := untouched_accumulator machine (.number Generator.readInteger)
  have agrees' := agrees.of_untouched untouched
  have serves := step_readInteger asked.ahead (set_self _ _ _)
  rw [agrees'.input] at serves
  refine .of_steps asked.steps ?_
  rw [readInteger_eq]
  rcases result : state.input.readInteger with ⟨answer, input⟩
  rw [result] at serves
  cases answer with
  | error cause =>
      exact ⟨_, .refl, {
        output := agrees'.output
        fault := .inr ⟨serves, by rw [agrees'.input, result]⟩ }⟩
  | ok value =>
      refine ⟨_, .single serves, set_self _ _ _, {
        ahead := drop_of_ahead asked.ahead
        agrees := {
          toShares := { agrees'.toShares with input := rfl }
          pointer := (set_of_ne (by decide) _ _).trans agrees'.pointer
          scope := agrees'.scope }
        kept := {
          returnAddress := (set_of_ne (by decide) _ _).trans untouched.returnAddress
          stack := fun _ _ => rfl }
        globals := .refl _ _ }⟩

/-- Writing a number by what is in the output. -/
theorem writeLine_eq (value : Int32) (unbounded : state.output.capacity = none) :
    Interpreter.writeLine value state = .ok ()
      { state with output := { state.output with
          written := state.output.written ++ (Decimal.render value).toByteArray.data ++
            "\n".toByteArray.data } } := by
  simp only [Interpreter.writeLine, Interpreter.attempt, bind, EStateM.bind,
    Interpreter.modifyGet_apply, Output.write, unbounded, Interpreter.ofExcept]
  rw [String.toByteArray_append, ByteArray.data_append, Array.append_assoc]
  rfl

/-- Another machine differs only in what it has written besides. -/
structure Printed (text : String) (machine after : Machine) : Prop where
  output : after.output = machine.output ++ text.toByteArray.data
  pointer : after.registers .stackPointer = machine.registers .stackPointer
  returnAddress : after.registers .returnAddress = machine.registers .returnAddress
  stack : after.stack = machine.stack
  data : after.data = machine.data
  input : after.input = machine.input

/-- A service that prints what the argument register stands for. -/
theorem runs_print {number : Int32} {load : Instr} (text : String) (argument : Word)
    (here : machine.ahead lines = .instr load :: (Code.lines (Code.service number) ++ rest))
    (loads : machine.execute lines load = .next (machine.set .argument argument))
    (prints : ∀ ready : Machine, ready.registers .accumulator = .number number →
      ready.registers .argument = argument → ready.serve lines = .next (ready.print text)) :
    ∃ after, Runs lines machine after rest ∧ Printed text machine after := by
  have loaded : Runs lines machine (machine.set .argument argument) _ := runs_instr here loads rfl
  have asked : Runs lines _
      ((machine.set .argument argument).set .accumulator (.number number)) _ :=
    runs_instr loaded.ahead rfl rfl
  have printed := runs_instr asked.ahead
    (prints _ (set_self _ _ _) ((set_of_ne (by decide) _ _).trans (set_self _ _ _))) rfl
  have untouched : Untouched machine (machine.set .argument argument) :=
    untouched_set _ _ (by decide) (by decide)
  have untouched := untouched.trans (untouched_accumulator _ (.number number))
  exact ⟨_, loaded.trans (asked.trans printed), rfl, untouched.pointer, untouched.returnAddress,
    rfl, rfl, rfl⟩

/-- The code that writes the accumulator on a line does what the interpreter does. -/
theorem follows_writeLine {value : Int32} (layout : Layout program lines)
    (agrees : Agrees program frame position state machine)
    (here : machine.ahead lines = Code.lines Code.writeLine ++ rest)
    (held : InAccumulator value machine) :
    Follows lines machine (Interpreter.writeLine value state) fun _ state' after =>
      Done program lines frame position position state machine rest state' after := by
  rw [writeLine_eq value agrees.unbounded]
  obtain ⟨between, run, printed⟩ := runs_print (Decimal.render value) (.number value) here
    (by rw [Machine.execute, held]) fun _ asked argument =>
      serve_printInteger asked argument
  obtain ⟨after, run', printed'⟩ := runs_print "\n" (.data .newLine) run.ahead
    (by simp [Machine.execute, layout.newLine]) fun _ asked argument => by
      rw [serve_printText asked argument layout.newLine]
      rfl
  exact ⟨after, (run.trans run').steps, {
    ahead := run'.ahead
    agrees := {
      input := printed'.input.trans (printed.input.trans agrees.input)
      output := by rw [printed'.output, printed.output, agrees.output]
      unbounded := agrees.unbounded
      procedures := agrees.procedures
      declared := agrees.declared
      words := by rw [printed'.data, printed.data]; exact agrees.words
      pointer := printed'.pointer.trans (printed.pointer.trans agrees.pointer)
      scope := by rw [printed'.stack, printed.stack]; exact agrees.scope }
    kept := {
      returnAddress := printed'.returnAddress.trans printed.returnAddress
      stack := fun place _ => by rw [printed'.stack, printed.stack] }
    globals := .refl _ _ }⟩

/-! ### Statements -/

section Trees

variable {invoke : Invoke}

/-- The code of a condition goes on where the condition holds. -/
theorem tests_condition (layout : Layout program lines) (serves : Serves program lines invoke)
    (test : Condition) (frame : Option Frame) (position : Int) (labels : Nat) (otherwise : Label)
    (admissible : ∀ part ∈ test.parts, Admissible program frame part) :
    Tests program lines frame position otherwise
      (Code.condition program.procedures.reverse frame labels test otherwise)
      (testWith invoke test) := by
  rw [Condition.parts, List.forall_mem_append] at admissible
  exact tests_compare test.relation layout
    (evaluates_expression layout serves test.left frame position labels admissible.1)
    (evaluates_expression layout serves test.right (Code.deeper frame) (position - 1) _
      fun part listed => (admissible.2 part listed).deeper)

/-- Code that computes a value and stores it to a variable. -/
theorem executes_store {name : String} {code : List CodeLine} {computation : Exec Int32}
    (write : Int32 → Environment → Environment) (layout : Layout program lines)
    (visible : Visible program frame name)
    (evaluates : Evaluates program lines frame position code computation)
    (writes : ∀ value state machine, Agrees program frame position state machine →
      InAccumulator value machine →
      Agrees program frame position (withEnvironment state (write value state.environment))
          (stored frame position machine name) ∧
        SameGlobals frame state (withEnvironment state (write value state.environment))) :
    Executes program lines frame position (code ++ Code.store frame name)
      (do
        let value ← computation
        modify fun state => withEnvironment state (write value state.environment)) := by
  intro state machine rest agrees here
  simp only [Code.lines_append, List.append_assoc] at here
  refine (evaluates state machine _ agrees here).bind ?_
  rintro value middle between - ⟨held, done⟩
  have done := done.mono (position_le_frameEnd frame position)
  have store := runs_store done.ahead done.agrees.pointer fun absent => by
    rw [done.agrees.words name (visible absent)]
    exact ⟨layout.words name (visible absent), rfl⟩
  obtain ⟨agrees', same⟩ := writes value middle between done.agrees held
  exact ⟨_, store.steps, trivial,
    done.trans ⟨store.ahead, agrees', kept_stored _ _ _ _, same⟩ (Int.le_refl _)⟩

mutual

/-- The code of a statement does what the statement does. -/
theorem executes_statement (layout : Layout program lines) (serves : Serves program lines invoke)
    (fuel : Nat) (tree : Stmt) (frame : Option Frame) (position : Int) (labels : Nat)
    (writable : Writable program frame tree.expressions tree.assigned tree.received) :
    Executes program lines frame position
      (Code.statement program.procedures.reverse frame labels tree)
      (executeWith invoke fuel tree) := by
  cases tree with
  | assign target value =>
      obtain ⟨visible, global⟩ := writable.assigned target (by simp [Stmt.assigned])
      rw [Code.statement, executeWith]
      exact executes_store (fun value environment => environment.set target value) layout visible
        (evaluates_expression layout serves value frame position labels writable.admissible)
        fun value state machine agrees held => agrees.set global held
  | block body =>
      rw [Code.statement, executeWith]
      exact executes_statements layout serves fuel body frame position labels writable
  | ifThen test body =>
      have parts := List.forall_mem_append.1 writable.admissible
      rw [Code.statement, executeWith]
      exact executes_choose layout
        (tests_condition layout serves test frame position _ _ parts.1)
        (executes_statement layout serves fuel body frame position _
          { writable with admissible := parts.2 }) executes_nil
  | ifElse test thenBranch elseBranch =>
      obtain ⟨first, second⟩ := writable_append.1 writable
      have parts := List.forall_mem_append.1 first.admissible
      rw [Code.statement, executeWith]
      exact executes_choose layout
        (tests_condition layout serves test frame position _ _ parts.1)
        (executes_statement layout serves fuel thenBranch frame position _
          { first with admissible := parts.2 })
        (executes_statement layout serves fuel elseBranch frame position _ second)
  | loop test body =>
      have parts := List.forall_mem_append.1 writable.admissible
      rw [Code.statement, executeWith]
      exact executes_loop layout
        (tests_condition layout serves test frame position _ _ parts.1)
        (executes_statement layout serves fuel body frame position _
          { writable with admissible := parts.2 }) fuel
  | read target =>
      obtain ⟨visible, owned⟩ := writable.received target (by simp [Stmt.received])
      rw [Code.statement, executeWith]
      exact executes_store (fun value environment => environment.declare target value) layout
        visible evaluates_read
        fun value state machine agrees held => agrees.declare owned held
  | write value =>
      intro state machine rest agrees here
      simp only [Code.statement, Code.lines_append, List.append_assoc] at here
      rw [executeWith]
      refine (evaluates_expression layout serves value frame position labels writable.admissible
        state machine _ agrees here).bind ?_
      rintro number middle between - ⟨held, done⟩
      refine (follows_writeLine layout done.agrees done.ahead held).continue_steps ?_
      rintro - state' after - done'
      exact ⟨after, .refl, trivial, (done.trans done' (Int.le_refl _)).mono
        (position_le_frameEnd frame position)⟩

/-- The code of statements does what they do, in order. -/
theorem executes_statements (layout : Layout program lines) (serves : Serves program lines invoke)
    (fuel : Nat) (trees : List Stmt) (frame : Option Frame) (position : Int) (labels : Nat)
    (writable : Writable program frame (Stmt.expressionsAll trees) (Stmt.assignedAll trees)
      (Stmt.receivedAll trees)) :
    Executes program lines frame position
      (Code.statements program.procedures.reverse frame labels trees)
      (executeAllWith invoke fuel trees) := by
  cases trees with
  | nil =>
      rw [Code.statements, executeAllWith]
      exact executes_nil
  | cons first rest =>
      obtain ⟨writable, writable'⟩ := writable_append.1 writable
      rw [Code.statements, executeAllWith]
      exact executes_append
        (executes_statement layout serves fuel first frame position labels writable)
        (executes_statements layout serves fuel rest frame position _ writable')

end

end Trees

end MiniPascal
