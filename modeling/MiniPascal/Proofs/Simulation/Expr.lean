import MiniPascal.Proofs.Simulation.Agreement

/-!
# The code of expressions follows the interpreter

The code of an expression does on the machine what the interpreter does for the expression, by
recursion on the tree: it leaves the value in the accumulator, or traps. What a call needs from the
code of procedures is the hypothesis `Serves`.
-/

namespace MiniPascal

open Interpreter (Exec Invoke evaluateWith evaluateAllWith)
open Machine

/-- What the code of a program relies on. -/
structure Layout (program : Program) (lines : List Line) : Prop where
  distinct : (definedLabels lines).Nodup
  words : ∀ name ∈ program.globalNames, (wordAt? lines (.global name)).isSome
  newLine : textAt? lines .newLine = some "\\n"
  bodies : ∀ procedure ∈ program.procedures, ∃ labels rest,
    Code.lines (Code.procedure program.procedures.reverse labels procedure) ++ rest <:+ lines

/-- An expression that can be compiled: it is no call at fault and no variable without a word. -/
structure Admissible (program : Program) (frame : Option Frame) (part : Expr) : Prop where
  sound : part.fault? program.procedures.reverse = none
  visible : ∀ name, part = .var name → Visible program frame name

/-- What a piece of code has done when the machine is behind it. -/
structure Done (program : Program) (lines : List Line) (frame : Option Frame) (position limit : Int)
    (before : Interpreter) (machine : Machine) (rest : List Line) (state : Interpreter)
    (after : Machine) : Prop where
  ahead : after.ahead lines = rest
  agrees : Agrees program frame position state after
  kept : Kept limit machine after
  globals : SameGlobals frame before state

/-- Code that does what a computation does. `holds` says where a result is to be found. -/
def Implements {α : Type} (program : Program) (lines : List Line) (frame : Option Frame)
    (position limit : Int) (holds : α → Machine → Prop) (code : List CodeLine)
    (computation : Exec α) : Prop :=
  ∀ state machine rest, Agrees program frame position state machine →
    machine.ahead lines = Code.lines code ++ rest →
    Follows lines machine (computation state) fun value state' after =>
      holds value after ∧ Done program lines frame position limit state machine rest state' after

/-- A value is in the accumulator. -/
abbrev InAccumulator (value : Int32) (machine : Machine) : Prop :=
  machine.registers .accumulator = .number value

/-- Code that computes a value, with a stack that is only used below its top. -/
def Evaluates (program : Program) (lines : List Line) (frame : Option Frame) (position : Int) :
    List CodeLine → Exec Int32 → Prop :=
  Implements program lines frame position position InAccumulator

/-- Code that has an effect, which may change the words of the frame. -/
def Executes (program : Program) (lines : List Line) (frame : Option Frame) (position : Int) :
    List CodeLine → Exec Unit → Prop :=
  Implements program lines frame position (frameEnd frame position) fun _ _ => True

variable {program : Program} {lines rest : List Line} {frame : Option Frame}
variable {position limit : Int} {before state : Interpreter} {machine after : Machine}

theorem Shares.of_memory (shares : Shares program state machine)
    (same : SameMemory machine after) : Shares program state after :=
  shares.of_machine same.input same.output same.data

theorem Agrees.of_untouched (agrees : Agrees program frame position state machine)
    (untouched : Untouched machine after) : Agrees program frame position state after where
  toShares := agrees.toShares.of_memory untouched.toSameMemory
  pointer := untouched.pointer.trans agrees.pointer
  scope := untouched.stack ▸ agrees.scope

theorem Kept.of_untouched (untouched : Untouched machine after) (limit : Int) :
    Kept limit machine after where
  returnAddress := untouched.returnAddress
  stack position _ := congrFun untouched.stack position

theorem Done.of_untouched (agrees : Agrees program frame position state machine)
    (run : Runs lines machine after rest) (untouched : Untouched machine after) :
    Done program lines frame position limit state machine rest state after where
  ahead := run.ahead
  agrees := agrees.of_untouched untouched
  kept := .of_untouched untouched limit
  globals := .refl _ _

theorem Done.mono {limit' : Int}
    (done : Done program lines frame position limit before machine rest state after)
    (below : limit ≤ limit') :
    Done program lines frame position limit' before machine rest state after :=
  { done with kept := done.kept.mono below }

theorem Done.trans {limit' : Int} {middle : Interpreter} {between : Machine} {rest' : List Line}
    (first : Done program lines frame position limit before machine rest' middle between)
    (second : Done program lines frame position limit' middle between rest state after)
    (below : limit' ≤ limit) :
    Done program lines frame position limit before machine rest state after where
  ahead := second.ahead
  agrees := second.agrees
  kept := first.kept.trans second.kept below
  globals := first.globals.trans second.globals

/-! ### Temporary words -/

theorem slot?_deeper (frame : Option Frame) (name : String) :
    slot? (Code.deeper frame) name = (slot? frame name).map (· + 1) := by
  cases frame with
  | none => rfl
  | some frame =>
      simp only [slot?, Code.deeper, Option.map_some, Option.bind_some, Frame.push,
        Option.map_map]
      congr 1
      funext index
      simp only [Function.comp_apply]
      omega

theorem Admissible.deeper {part : Expr} (admissible : Admissible program frame part) :
    Admissible program (Code.deeper frame) part where
  sound := admissible.sound
  visible name same := by
    intro absent
    rw [slot?_deeper, Option.map_eq_none_iff] at absent
    exact admissible.visible name same absent

theorem Agrees.pushed (agrees : Agrees program frame position state machine) (word : Word) :
    Agrees program (Code.deeper frame) (position - 1) state (machine.pushed position word) where
  toShares := agrees.toShares.of_machine rfl rfl rfl
  pointer := by simp [Machine.pushed]
  scope := scopeAgrees_deeper.2 (agrees.scope.of_stack fun place above =>
    Function.update_of_ne (by omega) _ _)

theorem Agrees.popped {register : Register}
    (agrees : Agrees program (Code.deeper frame) (position - 1) state machine) (word : Word) :
    Agrees program frame position state (machine.popped register (position - 1) word) where
  toShares := agrees.toShares.of_machine rfl rfl rfl
  pointer := by simp [Machine.popped]
  scope := scopeAgrees_deeper.1 agrees.scope

theorem sameMemory_popped (machine : Machine) (register : Register) (position : Int)
    (word : Word) : SameMemory machine (machine.popped register position word) :=
  ⟨rfl, rfl, rfl, rfl⟩

theorem kept_pushed (machine : Machine) (position : Int) (word : Word) :
    Kept position machine (machine.pushed position word) where
  returnAddress := by
    have apart : Register.returnAddress ≠ Register.stackPointer := by decide
    simp [Machine.pushed, Function.update_of_ne apart]
  stack place above := Function.update_of_ne (by omega) _ _

theorem kept_popped {register : Register} (machine : Machine) (position limit : Int) (word : Word)
    (other : .returnAddress ≠ register) :
    Kept limit machine (machine.popped register position word) where
  returnAddress := by
    have apart : Register.returnAddress ≠ Register.stackPointer := by decide
    simp [Machine.popped, Function.update_of_ne apart, Function.update_of_ne other]
  stack _ _ := rfl

theorem sameGlobals_deeper {state' : Interpreter} :
    SameGlobals (Code.deeper frame) state state' ↔ SameGlobals frame state state' := by
  simp [SameGlobals, Code.deeper]

/-! ### Operands and operators -/

/-- The code of two operands computes them from left to right and leaves both in registers. -/
theorem follows_operands {α : Type} {left right : Exec Int32} {code code' : List CodeLine}
    {use : Int32 → Int32 → Exec α} {post : α → Interpreter → Machine → Prop}
    (evaluates : Evaluates program lines frame position code left)
    (evaluates' : Evaluates program lines (Code.deeper frame) (position - 1) code' right)
    (agrees : Agrees program frame position state machine)
    (here : machine.ahead lines = Code.lines (Code.operands code code') ++ rest)
    (uses : ∀ first second state' after, after.registers .scratch = .number first →
      after.registers .accumulator = .number second →
      Done program lines frame position position state machine rest state' after →
      Follows lines after (use first second state') post) :
    Follows lines machine
      ((do let first ← left; let second ← right; use first second) state) post := by
  simp only [Code.operands, Code.lines_append, List.append_assoc] at here
  refine (evaluates state machine _ agrees here).bind ?_
  rintro first middle between - ⟨held, done⟩
  have push := runs_push done.ahead done.agrees.pointer (by decide)
  rw [held] at push
  refine .of_steps push.steps ((evaluates' middle _ _ (done.agrees.pushed _) push.ahead).bind ?_)
  rintro second state' final - ⟨held', done'⟩
  have top : final.stack (position - 1) = some (.number first) := by
    rw [done'.kept.stack _ (Int.le_refl _)]
    simp [Machine.pushed]
  have pop := runs_pop done'.ahead done'.agrees.pointer top (by decide)
  have kept : Kept position between final :=
    (kept_pushed between position _).trans done'.kept (by omega)
  refine .of_steps pop.steps (uses first second state' _ ?_ ?_ {
    ahead := pop.ahead
    agrees := done'.agrees.popped _
    kept := (done.kept.trans kept (Int.le_refl _)).trans
      (kept_popped final _ position _ (by decide)) (Int.le_refl _)
    globals := done.globals.trans (sameGlobals_deeper.1 done'.globals) })
  · have apart : Register.scratch ≠ Register.stackPointer := by decide
    simp [Machine.popped, Function.update_of_ne apart]
  · have apart : Register.accumulator ≠ Register.stackPointer := by decide
    have apart' : Register.accumulator ≠ Register.scratch := by decide
    simpa [Machine.popped, Function.update_of_ne apart, Function.update_of_ne apart'] using held'

/-- Code without effect that computes a known value. -/
theorem follows_value {value : Int32} (agrees : Agrees program frame position state machine)
    (run : Runs lines machine after rest) (untouched : Untouched machine after)
    (held : InAccumulator value after) :
    Follows lines machine (.ok value state) fun value state' after =>
      InAccumulator value after ∧
        Done program lines frame position position state machine rest state' after :=
  ⟨after, run.steps, held, .of_untouched agrees run untouched⟩

/-- A division by zero traps. -/
theorem trapped_division {first : Int32} {operation : String} {following : List Line}
    (agrees : Agrees program frame position state machine)
    (here : machine.ahead lines = .instr (.div .scratch .accumulator) :: following)
    (left : machine.registers .scratch = .number first)
    (right : machine.registers .accumulator = .number 0) :
    Trapped lines machine (.byZero operation) state where
  output := agrees.output
  fault := by
    refine .inl ⟨?_, agrees.input, operation, rfl⟩
    simp [Machine.step, getElem?_of_ahead here, Machine.execute, withNumbers, left, right]

/-- Code that multiplies or divides, and then fetches a part of what that gives. -/
theorem runs_fetch {instruction fetch : Instr} {high low : Int32} (part : Int32)
    (here : machine.ahead lines = .instr instruction :: .instr fetch :: rest)
    (divides : machine.execute lines instruction = .next { machine.advance with high, low })
    (fetches : ∀ origin : Machine, origin.high = high → origin.low = low →
      origin.execute lines fetch = .next (origin.set .accumulator (.number part))) :
    ∃ after, Runs lines machine after rest ∧ Untouched machine after ∧
      InAccumulator part after := by
  have divided : Runs lines machine { machine.advance with high, low } _ :=
    runs_instr here divides rfl
  refine ⟨_, divided.trans (runs_instr divided.ahead (fetches _ rfl rfl) rfl), ?_, set_self _ _ _⟩
  have plain : Untouched machine { machine.advance with high, low } :=
    ⟨⟨rfl, rfl, rfl, rfl⟩, rfl, rfl⟩
  exact plain.trans (untouched_accumulator _ _)

/-- The code of an operator does what the operator does, and traps where it fails. -/
theorem follows_operate {operator : Operator} {first second : Int32}
    (agrees : Agrees program frame position state machine)
    (here : machine.ahead lines = Code.lines (Code.operate operator) ++ rest)
    (left : machine.registers .scratch = .number first)
    (right : machine.registers .accumulator = .number second) :
    Follows lines machine (Interpreter.ofExcept (operator.apply first second) state)
      fun value state' after => InAccumulator value after ∧
        Done program lines frame position position state machine rest state' after := by
  cases operator with
  | add =>
      have run : Runs lines machine (machine.set .accumulator (.number (first + second))) rest :=
        runs_instr here (by simp only [Machine.execute, withNumbers, left, right]) rfl
      exact follows_value agrees run (untouched_accumulator _ _) (set_self _ _ _)
  | sub =>
      have run : Runs lines machine (machine.set .accumulator (.number (first - second))) rest :=
        runs_instr here (by simp only [Machine.execute, withNumbers, left, right]) rfl
      exact follows_value agrees run (untouched_accumulator _ _) (set_self _ _ _)
  | mul =>
      obtain ⟨after, run, untouched, held⟩ := runs_fetch (first * second) here
        (by simp only [Machine.execute, withNumbers, left, right]; rfl)
        (fun origin _ low => by rw [Machine.execute, low])
      exact follows_value agrees run untouched held
  | div =>
      rw [Operator.apply]
      by_cases zero : second = 0
      · subst zero
        exact ⟨machine, .refl, trapped_division agrees here left right⟩
      · rw [if_neg zero]
        obtain ⟨after, run, untouched, held⟩ := runs_fetch (first / second) here
          (by simp only [Machine.execute, withNumbers, left, right, if_neg zero]; rfl)
          (fun origin _ low => by rw [Machine.execute, low])
        exact follows_value agrees run untouched held
  | mod =>
      rw [Operator.apply]
      by_cases zero : second = 0
      · subst zero
        exact ⟨machine, .refl, trapped_division agrees here left right⟩
      · rw [if_neg zero]
        obtain ⟨after, run, untouched, held⟩ := runs_fetch (first % second) here
          (by simp only [Machine.execute, withNumbers, left, right, if_neg zero]; rfl)
          (fun origin high _ => by rw [Machine.execute, high])
        exact follows_value agrees run untouched held

/-! ### Variables and comparisons -/

theorem suffix_of_ahead {front : List Line} (here : machine.ahead lines = front ++ rest) :
    rest <:+ lines :=
  List.IsSuffix.trans ⟨front, here.symm⟩ (List.drop_suffix _ _)

/-- Loading a variable reads it. -/
theorem evaluates_load {name : String} (layout : Layout program lines)
    (visible : Visible program frame name) (position : Int) :
    Evaluates program lines frame position (Code.load frame name)
      (Interpreter.readVariable name) := by
  intro state machine rest agrees here
  obtain ⟨word, agrees', same⟩ := agrees.get visible
  obtain ⟨after, run, untouched, held⟩ := runs_load here agrees.pointer
    (fun absent => layout.words name (visible absent)) word
  exact ⟨after, run.steps, held, run.ahead, agrees'.of_untouched untouched,
    .of_untouched untouched _, same⟩

/-- Code that goes on where a condition holds, and at a label where it does not. -/
def Tests (program : Program) (lines : List Line) (frame : Option Frame) (position : Int)
    (otherwise : Label) (code : List CodeLine) (computation : Exec Bool) : Prop :=
  ∀ state machine rest elsewhere, Agrees program frame position state machine →
    machine.ahead lines = Code.lines code ++ rest → .label otherwise :: elsewhere <:+ lines →
    Follows lines machine (computation state) fun holds state' after =>
      Done program lines frame position position state machine
        (if holds then rest else elsewhere) state' after

/-- The branch at the end of a comparison is taken when the comparison does not hold. -/
theorem runs_branch {relation : Comparison} {first second : Int32} {otherwise : Label}
    {elsewhere : List Line} (layout : Layout program lines)
    (here : machine.ahead lines =
      .instr (.branch relation.negate .scratch .accumulator otherwise) :: rest)
    (left : machine.registers .scratch = .number first)
    (right : machine.registers .accumulator = .number second)
    (target : .label otherwise :: elsewhere <:+ lines) :
    ∃ after, Runs lines machine after (if relation.holds first second then rest else elsewhere) ∧
      Untouched machine after := by
  have taken := relation.holds_negate first second
  rw [← taken_eq] at taken
  cases holds : relation.holds first second with
  | true =>
      rw [holds] at taken
      exact ⟨machine.advance, runs_instr here
        (by simp [Machine.execute, withNumbers, left, right, taken]) rfl, untouched_place _ _⟩
  | false =>
      rw [holds] at taken
      exact ⟨_, runs_jump layout.distinct here
        (by simp [Machine.execute, withNumbers, left, right, taken]) target,
        untouched_place machine _⟩

theorem tests_compare (relation : Comparison) {otherwise : Label} {left right : Exec Int32}
    {code code' : List CodeLine} (layout : Layout program lines)
    (evaluates : Evaluates program lines frame position code left)
    (evaluates' : Evaluates program lines (Code.deeper frame) (position - 1) code' right) :
    Tests program lines frame position otherwise (Code.compare relation code code' otherwise)
      (do let first ← left; let second ← right; return relation.holds first second) := by
  intro state machine rest elsewhere agrees here target
  simp only [Code.compare, Code.lines_append, List.append_assoc] at here
  refine follows_operands evaluates evaluates' agrees here ?_
  intro first second state' between held held' done
  obtain ⟨after, run, untouched⟩ := runs_branch layout done.ahead held held' target
  exact ⟨after, run.steps, done.trans (.of_untouched done.agrees run untouched) (Int.le_refl _)⟩

/-- The code that turns a comparison into a value. -/
theorem evaluates_truth {number : Nat} {test : Exec Bool} {code : List CodeLine}
    (layout : Layout program lines)
    (tests : Tests program lines frame position (.numbered "false" number) code test) :
    Evaluates program lines frame position (Code.truth number code)
      (do let holds ← test; return if holds then 1 else 0) := by
  intro state machine rest agrees here
  simp only [Code.truth, Code.lines_append, List.append_assoc] at here
  have target : .label (.numbered "false" number) :: .instr (.li .accumulator 0) ::
      .label (.numbered "done" number) :: rest <:+ lines := by
    have whole := suffix_of_ahead here
    exact (List.suffix_append [_, _] _).trans whole
  refine (tests state machine _ _ agrees here target).bind ?_
  rintro holds state' between - done
  have ahead := done.ahead
  cases holds with
  | true =>
      have loaded : Runs lines between (between.set .accumulator (.number 1)) _ :=
        runs_instr ahead rfl rfl
      have jumped := runs_jump layout.distinct loaded.ahead rfl
        ((List.suffix_append [_, _] _).trans target)
      have untouched := (untouched_accumulator between (.number 1)).trans
        (untouched_place (between.set .accumulator (.number 1)) (placeOf lines rest))
      have run := loaded.trans jumped
      exact ⟨_, run.steps, set_self between .accumulator (.number 1),
        done.trans (.of_untouched done.agrees run untouched) (Int.le_refl _)⟩
  | false =>
      have loaded : Runs lines between (between.set .accumulator (.number 0)) _ :=
        runs_instr ahead rfl rfl
      have run := loaded.trans (runs_label loaded.ahead)
      have untouched : Untouched between (between.set .accumulator (.number 0)).advance :=
        (untouched_accumulator between (.number 0)).trans (untouched_place _ _)
      exact ⟨_, run.steps, set_self between .accumulator (.number 0),
        done.trans (.of_untouched done.agrees run untouched) (Int.le_refl _)⟩

/-! ### Calls -/

/-- The stack holds numbers from a position upwards. -/
def HoldsNumbers (stack : Int → Option Word) (position : Int) : List Int32 → Prop
  | [] => True
  | first :: rest => stack position = some (.number first) ∧ HoldsNumbers stack (position + 1) rest

theorem HoldsNumbers.of_stack {stack stack' : Int → Option Word} {position : Int}
    {numbers : List Int32} (holds : HoldsNumbers stack position numbers)
    (same : ∀ place, position ≤ place → stack' place = stack place) :
    HoldsNumbers stack' position numbers := by
  induction numbers generalizing position with
  | nil => trivial
  | cons first rest ih =>
      exact ⟨(same position (Int.le_refl _)).trans holds.1,
        ih holds.2 fun place above => same place (by omega)⟩

theorem HoldsNumbers.isSome {stack : Int → Option Word} {position : Int} {numbers : List Int32}
    (holds : HoldsNumbers stack position numbers) {place : Int} (above : position ≤ place)
    (below : place < position + numbers.length) : (stack place).isSome := by
  induction numbers generalizing position with
  | nil =>
      simp only [List.length_nil] at below
      omega
  | cons first rest ih =>
      rcases Int.lt_or_eq_of_le above with further | rfl
      · simp only [List.length_cons] at below
        exact ih holds.2 (by omega) (by omega)
      · rw [holds.1]
        rfl

theorem HoldsNumbers.pushed {numbers : List Int32}
    (holds : HoldsNumbers machine.stack position numbers) (value : Int32) :
    HoldsNumbers (machine.pushed position (.number value)).stack (position - 1)
      (value :: numbers) := by
  refine ⟨by simp [Machine.pushed], ?_⟩
  rw [Int.sub_add_cancel]
  exact holds.of_stack fun place above => Function.update_of_ne (by omega) _ _

/-- What a call needs and does on a machine that is behind the label of a procedure: the
arguments are on the stack, the last one on top, below the slot of the result. -/
def Serves (program : Program) (lines : List Line) (invoke : Invoke) : Prop :=
  ∀ procedure ∈ program.procedures, ∀ (values : List Int32) (state : Interpreter)
    (machine : Machine) (position : Int) (back : Nat) (labels : Nat) (rest : List Line),
    procedure.params.length ≤ values.length → Shares program state machine →
    machine.registers .stackPointer = .stack position →
    machine.registers .returnAddress = .code back →
    HoldsNumbers machine.stack position ((values.take procedure.params.length).reverse ++ [0]) →
    .label (.procedure procedure.name) :: machine.ahead lines =
      Code.lines (Code.procedure program.procedures.reverse labels procedure) ++ rest →
    Follows lines machine (invoke procedure values state) fun value state' after =>
      after.place = back ∧ Shares program state' after ∧
      after.registers .stackPointer = .stack position ∧
      after.stack (position + procedure.params.length) = some (.number value) ∧
      Kept (position + procedure.params.length + 1) machine after ∧
      state'.environment.frame = state.environment.frame ∧
      ∀ name, name ∈ state'.environment.globals ↔ name ∈ state.environment.globals

/-- Words that were written can be popped into the accumulator. -/
theorem runs_discard {count : Nat}
    (here : machine.ahead lines = Code.lines (Code.discard count) ++ rest)
    (pointer : machine.registers .stackPointer = .stack position)
    (written : ∀ place, position ≤ place → place < position + count →
      (machine.stack place).isSome) :
    ∃ after, Runs lines machine after rest ∧
      after.registers .stackPointer = .stack (position + count) ∧
      after.registers .returnAddress = machine.registers .returnAddress ∧
      SameMemory machine after := by
  induction count generalizing machine position with
  | zero =>
      exact ⟨machine, ⟨.refl, here⟩, by simpa using pointer, rfl, ⟨rfl, rfl, rfl, rfl⟩⟩
  | succ count ih =>
      simp only [Code.discard, Code.lines_append, List.append_assoc] at here
      obtain ⟨word, top⟩ := Option.isSome_iff_exists.1
        (written position (Int.le_refl _) (by omega))
      have pop := runs_pop here pointer top (by decide)
      have moved : (machine.popped .accumulator position word).registers .stackPointer =
          .stack (position + 1) := by
        simp [Machine.popped]
      obtain ⟨after, run, pointer', address, same⟩ := ih pop.ahead moved
        (fun place above below => written place (by omega) (by omega))
      refine ⟨after, pop.trans run, ?_, ?_, (sameMemory_popped _ _ _ _).trans same⟩
      · rw [pointer']
        congr 1
        omega
      · exact address.trans (kept_popped machine position position word (by decide)).returnAddress

/-- The code behind a call drops the arguments, fetches the result and restores the return
address. -/
theorem runs_return {count : Nat} {value : Int32} {saved : Word}
    (here : machine.ahead lines = Code.lines (Code.discard count) ++
      (Code.lines (Code.pop .accumulator) ++ (Code.lines (Code.pop .returnAddress) ++ rest)))
    (pointer : machine.registers .stackPointer = .stack (position - 1 - 1 - count))
    (written : ∀ place, position - 1 - 1 - count ≤ place → place < position - 1 - 1 →
      (machine.stack place).isSome)
    (result : machine.stack (position - 1 - 1) = some (.number value))
    (address : machine.stack (position - 1) = some saved) :
    ∃ after, Runs lines machine after rest ∧ InAccumulator value after ∧
      after.registers .stackPointer = .stack position ∧
      after.registers .returnAddress = saved ∧ SameMemory machine after := by
  obtain ⟨between, run, pointer', -, same⟩ :=
    runs_discard here pointer (fun place above below => written place above (by omega))
  rw [Int.sub_add_cancel] at pointer'
  rw [← same.stack] at result address
  have pop := runs_pop run.ahead pointer' result (by decide)
  have moved : (between.popped .accumulator (position - 1 - 1) (.number value)).registers
      .stackPointer = .stack (position - 1) := by
    simp [Machine.popped]
  have pop' := runs_pop pop.ahead moved address (by decide)
  refine ⟨_, run.trans (pop.trans pop'), ?_, ?_, ?_,
    same.trans ((sameMemory_popped _ _ _ _).trans (sameMemory_popped _ _ _ _))⟩
  · have apart : Register.accumulator ≠ Register.stackPointer := by decide
    have apart' : Register.accumulator ≠ Register.returnAddress := by decide
    simp [InAccumulator, Machine.popped, Function.update_of_ne apart, Function.update_of_ne apart']
  · simp [Machine.popped]
  · have apart : Register.returnAddress ≠ Register.stackPointer := by decide
    simp [Machine.popped, Function.update_of_ne apart]

/-- A call of a sound expression finds its procedure. -/
theorem callee_of_sound {name : String} {args : List Expr}
    (procedures : state.environment.procedures = program.procedures.reverse)
    (sound : (Expr.call name args).fault? program.procedures.reverse = none) :
    ∃ procedure ∈ program.procedures, procedure.name = name ∧
      Code.arity program.procedures.reverse name = procedure.params.length ∧
      procedure.params.length ≤ args.length ∧
      Interpreter.callee name args.length state = .ok procedure state := by
  rw [Expr.fault?] at sound
  cases found : program.procedures.reverse.find? (·.name = name) with
  | none => rw [found] at sound; cases sound
  | some procedure =>
      simp only [found, ite_eq_right_iff, reduceCtorEq, imp_false, Nat.not_lt] at sound
      refine ⟨procedure, ?_, ?_, ?_, sound, ?_⟩
      · exact List.mem_reverse.1 (List.mem_of_find?_eq_some found)
      · simpa using List.find?_some found
      · rw [Code.arity, found]
        rfl
      · have known : state.environment.procedure name = .ok procedure := by
          rw [Environment.procedure, procedures, found]
        simp [Interpreter.callee, Interpreter.ofExcept, bind, EStateM.bind,
          Interpreter.get_apply, known, pure, EStateM.pure, Nat.not_lt.2 sound]

/-- What the code of the arguments of a call has done: one word more for each parameter. -/
structure ArgumentsDone (program : Program) (lines : List Line) (frame : Option Frame)
    (position : Int) (params : Nat) (numbers : List Int32) (before : Interpreter)
    (machine : Machine) (rest : List Line) (values : List Int32) (state : Interpreter)
    (after : Machine) : Prop where
  ahead : after.ahead lines = rest
  agrees : Agrees program (Code.deepen params frame) (position - params) state after
  holds : HoldsNumbers after.stack (position - params) ((values.take params).reverse ++ numbers)
  kept : Kept position machine after
  globals : SameGlobals frame before state

/-- Code that computes the arguments of a call with a number of parameters. -/
def EvaluatesAll (program : Program) (lines : List Line) (frame : Option Frame) (position : Int)
    (params : Nat) (code : List CodeLine) (computation : Exec (List Int32)) : Prop :=
  ∀ state machine rest numbers, Agrees program frame position state machine →
    HoldsNumbers machine.stack position numbers →
    machine.ahead lines = Code.lines code ++ rest →
    Follows lines machine (computation state) fun values state' after =>
      params ≤ values.length ∧
        ArgumentsDone program lines frame position params numbers state machine rest values state'
          after

/-- The code in front of a call saves the return address and makes room for the result. -/
theorem runs_prepare (agrees : Agrees program frame position state machine)
    (here : machine.ahead lines = Code.lines (Code.push .returnAddress) ++
      (Code.lines [Code.instr (.li .accumulator 0)] ++
        (Code.lines (Code.push .accumulator) ++ rest))) :
    ∃ after, Runs lines machine after rest ∧
      Agrees program (Code.deeper (Code.deeper frame)) (position - 1 - 1) state after ∧
      HoldsNumbers after.stack (position - 1 - 1) [0] ∧
      after.stack (position - 1) = some (machine.registers .returnAddress) ∧
      Kept position machine after := by
  have saved := runs_push here agrees.pointer (by decide)
  have agreesSaved := agrees.pushed (machine.registers .returnAddress)
  have zeroed : Runs lines _ ((machine.pushed position (machine.registers .returnAddress)).set
      .accumulator (.number 0)) _ :=
    runs_instr saved.ahead rfl rfl
  have untouched := untouched_accumulator
    (machine.pushed position (machine.registers .returnAddress)) (.number 0)
  have agreesZeroed := agreesSaved.of_untouched untouched
  have slotted := runs_push zeroed.ahead agreesZeroed.pointer (by decide)
  rw [set_self] at slotted
  refine ⟨_, saved.trans (zeroed.trans slotted), agreesZeroed.pushed _,
    (show HoldsNumbers _ _ [] from trivial).pushed 0, ?_, ?_⟩
  · rw [(kept_pushed _ (position - 1) _).stack (position - 1) (Int.le_refl _), untouched.stack]
    simp [Machine.pushed]
  · exact (kept_pushed machine position _).trans
      ((Kept.of_untouched untouched (position - 1)).trans (kept_pushed _ (position - 1) _)
        (Int.le_refl _)) (by omega)

/-- A machine at the code of a procedure that was called from another one. -/
theorem runs_jal {procedure : Procedure} (layout : Layout program lines)
    (member : procedure ∈ program.procedures)
    (here : machine.ahead lines = .instr (.jal (.procedure procedure.name)) :: rest) :
    ∃ after labels rest', Steps lines machine after ∧
      .label (.procedure procedure.name) :: after.ahead lines =
        Code.lines (Code.procedure program.procedures.reverse labels procedure) ++ rest' ∧
      after.registers .returnAddress = .code (machine.place + 1) ∧
      after.registers .stackPointer = machine.registers .stackPointer ∧
      SameMemory machine after := by
  obtain ⟨labels, rest', found⟩ := layout.bodies procedure member
  simp only [Code.procedure, List.append_assoc, Code.lines_cons, List.cons_append] at found
  have jumped := runs_jump layout.distinct here rfl found
  refine ⟨_, labels, rest', jumped.steps, ?_, ?_, ?_, ⟨rfl, rfl, rfl, rfl⟩⟩
  · rw [jumped.ahead]
    simp [Code.procedure, Code.label]
  · simp [linkRegister_eq]
  · have apart : Register.stackPointer ≠ Register.returnAddress := by decide
    simp [linkRegister_eq, Function.update_of_ne apart]

/-- The code of a call does what the call does. -/
theorem follows_call {invoke : Invoke} {procedure : Procedure} {code : List CodeLine}
    {arguments : Exec (List Int32)} (layout : Layout program lines)
    (serves : Serves program lines invoke) (member : procedure ∈ program.procedures)
    (evaluates : EvaluatesAll program lines (Code.deeper (Code.deeper frame)) (position - 1 - 1)
      procedure.params.length code arguments)
    (agrees : Agrees program frame position state machine)
    (here : machine.ahead lines =
      Code.lines (Code.call procedure.name procedure.params.length code) ++ rest) :
    Follows lines machine ((do let values ← arguments; invoke procedure values) state)
      fun value state' after => InAccumulator value after ∧
        Done program lines frame position position state machine rest state' after := by
  simp only [Code.call, Code.lines_append, List.append_assoc] at here
  obtain ⟨prepared, prepare, agrees', slot, saved, kept⟩ := runs_prepare agrees here
  refine .of_steps prepare.steps
    ((evaluates state prepared _ [0] agrees' slot prepare.ahead).bind ?_)
  rintro values middle pushed - ⟨enough, done⟩
  obtain ⟨called, labels, rest', jump, body, address, pointer, same⟩ :=
    runs_jal layout member done.ahead
  refine .of_steps jump (.continue_steps (serves procedure member values middle called _ _ labels
    rest' enough (done.agrees.toShares.of_memory same) (pointer.trans done.agrees.pointer) address
    (same.stack ▸ done.holds) body) ?_)
  rintro value state' returned run ⟨place, shares, pointer', result, keptCall, current, globals⟩
  -- The words of the arguments were written before the call, so they can be dropped behind it.
  have behind : returned.ahead lines = lines.drop (pushed.place + 1) := by
    rw [Machine.ahead, place]
  have written : ∀ place, position - 1 - 1 - procedure.params.length ≤ place →
      place < position - 1 - 1 → (returned.stack place).isSome := by
    intro place above below
    refine run.isSome_stack ?_
    rw [same.stack]
    refine done.holds.isSome above ?_
    simp only [List.length_append, List.length_reverse, List.length_take, List.length_singleton]
    omega
  have keptStack : ∀ place, position - 1 ≤ place → returned.stack place = prepared.stack place := by
    intro place above
    rw [keptCall.stack place (by omega), same.stack, done.kept.stack place (by omega)]
  obtain ⟨after, finish, held, pointer'', address', same'⟩ := runs_return
    (behind.trans (drop_of_ahead done.ahead)) pointer' written
    (by rw [← result]; congr 1; omega) ((keptStack _ (Int.le_refl _)).trans saved)
  have keptWhole : ∀ place, position ≤ place → after.stack place = machine.stack place := by
    intro place above
    rw [same'.stack, keptStack place (by omega), kept.stack place above]
  refine ⟨after, finish.steps, held, {
    ahead := finish.ahead
    agrees := { toShares := shares.of_memory same', pointer := pointer'', scope := ?_ }
    kept := { returnAddress := address', stack := keptWhole }
    globals := ?_ }⟩
  · have scope : ScopeAgrees middle.environment position pushed.stack frame :=
      scopeAgrees_deeper.1 (scopeAgrees_deeper.1 (scopeAgrees_deepen.1 done.agrees.scope))
    refine scope.of_call current globals fun place above => ?_
    rw [keptWhole place above, done.kept.stack place (by omega), kept.stack place above]
  · exact (sameGlobals_deeper.1 (sameGlobals_deeper.1 done.globals)).trans fun _ => globals

/-! ### Expressions -/

section Trees

variable {invoke : Invoke}

mutual

/-- The code of an expression computes its value. -/
theorem evaluates_expression (layout : Layout program lines)
    (serves : Serves program lines invoke) (tree : Expr) (frame : Option Frame) (position : Int)
    (labels : Nat)
    (admissible : ∀ part ∈ tree.parts, Admissible program frame part) :
    Evaluates program lines frame position
      (Code.expression program.procedures.reverse frame labels tree)
      (evaluateWith invoke tree) := by
  cases tree with
  | num value =>
      intro state machine rest agrees here
      rw [Code.expression] at here
      rw [evaluateWith]
      have run : Runs lines machine (machine.set .accumulator (.number value)) rest :=
        runs_instr here rfl rfl
      exact follows_value agrees run (untouched_accumulator _ _) (set_self _ _ _)
  | var name =>
      rw [Code.expression, evaluateWith]
      exact evaluates_load layout ((admissible _ (by simp [Expr.parts])).visible name rfl) position
  | binary operator left right =>
      simp only [Expr.parts, List.forall_mem_cons, List.forall_mem_append] at admissible
      intro state machine rest agrees here
      simp only [Code.expression, Code.lines_append, List.append_assoc] at here
      rw [evaluateWith]
      refine follows_operands
        (evaluates_expression layout serves left frame position labels admissible.2.1)
        (evaluates_expression layout serves right (Code.deeper frame) (position - 1) _
          fun part listed => (admissible.2.2 part listed).deeper) agrees here ?_
      intro first second state' between held held' done
      refine (follows_operate done.agrees done.ahead held held').continue_steps ?_
      rintro value state'' after - ⟨result, done'⟩
      exact ⟨after, .refl, result, done.trans done' (Int.le_refl _)⟩
  | compare relation left right =>
      simp only [Expr.parts, List.forall_mem_cons, List.forall_mem_append] at admissible
      have tests : Tests program lines frame position (.numbered "false" (labels + 1)) _ _ :=
        tests_compare relation layout
          (evaluates_expression layout serves left frame position (labels + 1) admissible.2.1)
          (evaluates_expression layout serves right (Code.deeper frame) (position - 1)
            (labels + 1 + left.labelCount)
            fun part listed => (admissible.2.2 part listed).deeper)
      have evaluates := evaluates_truth layout tests
      simpa only [Code.expression, evaluateWith, bind_assoc, pure_bind] using evaluates
  | call name args =>
      simp only [Expr.parts, List.forall_mem_cons] at admissible
      intro state machine rest agrees here
      obtain ⟨procedure, member, rfl, arity, enough, found⟩ :=
        callee_of_sound agrees.procedures admissible.1.sound
      rw [Code.expression, arity] at here
      have evaluates := evaluates_arguments layout serves args procedure.params.length
        (Code.deeper (Code.deeper frame)) (position - 1 - 1) labels
        (fun part listed => (admissible.2 part listed).deeper.deeper) enough
      have follows := follows_call layout serves member evaluates agrees here
      rw [evaluateWith]
      simpa only [bind, EStateM.bind, found] using follows

/-- The code of the arguments of a call computes them in order. -/
theorem evaluates_arguments (layout : Layout program lines)
    (serves : Serves program lines invoke) (args : List Expr) (params : Nat)
    (frame : Option Frame) (position : Int) (labels : Nat)
    (admissible : ∀ part ∈ Expr.partsAll args, Admissible program frame part)
    (enough : params ≤ args.length) :
    EvaluatesAll program lines frame position params
      (Code.arguments program.procedures.reverse frame labels params args)
      (evaluateAllWith invoke args) := by
  intro state machine rest numbers agrees holds here
  match args, params, enough with
  | [], 0, _ =>
      rw [evaluateAllWith]
      rw [Code.arguments] at here
      refine .pure ⟨Nat.zero_le _, {
        ahead := here
        agrees := by simpa [Code.deepen] using agrees
        holds := by simpa using holds
        kept := .refl _ _
        globals := .refl _ _ }⟩
  | first :: others, 0, _ =>
      simp only [Expr.partsAll, List.forall_mem_append] at admissible
      simp only [Code.arguments, Code.lines_append, List.append_assoc] at here
      rw [evaluateAllWith]
      refine (evaluates_expression layout serves first frame position labels admissible.1 state
        machine _ agrees here).bind ?_
      rintro value middle between - ⟨-, done⟩
      refine (evaluates_arguments layout serves others 0 frame position _ admissible.2
        (Nat.zero_le _) middle between _ numbers done.agrees (holds.of_stack done.kept.stack)
        done.ahead).bind ?_
      rintro values state' after - ⟨-, done'⟩
      exact .pure ⟨Nat.zero_le _, { done' with
        kept := done.kept.trans done'.kept (Int.le_refl _)
        globals := done.globals.trans done'.globals }⟩
  | first :: others, params + 1, enough =>
      simp only [Expr.partsAll, List.forall_mem_append] at admissible
      simp only [Code.arguments, Code.lines_append, List.append_assoc] at here
      rw [evaluateAllWith]
      refine (evaluates_expression layout serves first frame position labels admissible.1 state
        machine _ agrees here).bind ?_
      rintro value middle between - ⟨held, done⟩
      have push := runs_push done.ahead done.agrees.pointer (by decide)
      rw [held] at push
      have numbers' := (holds.of_stack done.kept.stack).pushed value
      refine .of_steps push.steps ((evaluates_arguments layout serves others params
        (Code.deeper frame) (position - 1) _ (fun part listed => (admissible.2 part listed).deeper)
        (Nat.le_of_succ_le_succ enough) middle _ _ (value :: numbers) (done.agrees.pushed _)
        numbers' push.ahead).bind ?_)
      rintro values state' after - ⟨enough', done'⟩
      have same : position - ((params + 1 : Nat) : Int) = position - 1 - params := by omega
      refine .pure ⟨Nat.succ_le_succ enough', {
        ahead := done'.ahead
        agrees := by rw [Code.deepen, same]; exact done'.agrees
        holds := by rw [same]; simpa using done'.holds
        kept := done.kept.trans
          ((kept_pushed between position _).trans done'.kept (by omega)) (Int.le_refl _)
        globals := done.globals.trans (sameGlobals_deeper.1 done'.globals) }⟩

end

end Trees

end MiniPascal
