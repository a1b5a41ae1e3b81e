import MiniPascal.Parser.Program
import MiniPascal.Proofs.Run.Regular
import MiniPascal.Tree.Equality

/-!
# Where a variable is written

A running body writes a variable in its call scope or among the globals; its code stores to a slot
of the frame or to a global word. Which one the interpreter takes depends on the names that are bound
by then and on the statement: an assignment looks for the name, a read binds it in the current
scope. The code depends on the names of the procedure alone. This module says at which moments of a
run the two agree.
-/

namespace MiniPascal

open Interpreter (Exec)

/-- Where a running body writes a variable. -/
inductive Place where
  /-- In the scope of the call; on the machine, in a slot of the frame. -/
  | call
  /-- Among the globals; on the machine, in the word of a global. -/
  | globals
  deriving DecidableEq

/-- The environment with a name bound in a place. -/
def Environment.bindIn (environment : Environment) (name : String) (value : Int32) :
    Place → Environment
  | .call => { environment with frame := environment.frame.map (·.insert name value) }
  | .globals => { environment with globals := environment.globals.insert name value }

/-- The state with a name bound in a place. -/
def Interpreter.bindIn (state : Interpreter) (name : String) (value : Int32) (place : Place) :
    Interpreter :=
  { state with environment := state.environment.bindIn name value place }

/-- A kind of statement that writes a variable. -/
inductive Writer where
  | assignment
  | read
  deriving DecidableEq

namespace Writer

/-- The variables that the statements of this kind write in a body. -/
def targets (body : Stmt) : Writer → List String
  | .assignment => body.assigned
  | .read => body.received

/-- How a statement of this kind writes a variable. -/
def write : Writer → String → Int32 → Exec Unit
  | .assignment => Interpreter.assign
  | .read => Interpreter.declare

/-- In a state, what a statement of this kind writes to a variable lands in a place. -/
def Lands (writer : Writer) (state : Interpreter) (name : String) (place : Place) : Prop :=
  ∀ value, writer.write name value state = .ok () (state.bindIn name value place)

end Writer

/-- A step of code generation in a frame appends instructions and does nothing else. -/
def Frame.Appends (frame : Frame) (step : Gen Unit) (instructions : List Instr) : Prop :=
  ∀ generator : Generator, generator.frame = some frame →
    step generator =
      .ok () { generator with code := generator.code ++ (instructions.map Line.instr).toArray }

/-- In a frame, the code that stores to a variable stores in a place. -/
def Frame.StoresIn (frame : Frame) (name : String) : Place → Prop
  | .call => ∃ offset, frame.offset? name = some offset ∧
      frame.Appends (Generator.store name) [.sw .accumulator offset .stackPointer]
  | .globals =>
      frame.Appends (Generator.store name)
        [.la .scratch (.global name), .sw .accumulator 0 .scratch]

/-- The place of a variable in the code of a procedure. -/
def Frame.place (frame : Frame) (name : String) : Place :=
  if frame.procedure.owns name then .call else .globals

/-- The place of a variable that a running body writes, by what is bound. -/
def Writer.place (globals scope : Scope) (name : String) : Writer → Place
  | .assignment => if name ∉ scope ∧ name ∈ globals then .globals else .call
  | .read => .call

variable {frame : Frame} {writer : Writer} {name : String} {place : Place}

/-! ### The place of the code -/

theorem Frame.Appends.unique {step : Gen Unit} {instructions instructions' : List Instr}
    (one : frame.Appends step instructions) (two : frame.Appends step instructions') :
    instructions = instructions' := by
  have first := one { frame := some frame } rfl
  rw [two { frame := some frame } rfl] at first
  have same : instructions.map Line.instr = instructions'.map Line.instr := by
    simpa using first.symm
  exact (List.map_inj_right fun _ _ equal => Line.instr.inj equal).1 same

/-- The code of a store. -/
theorem appends_store {instructions : List Instr}
    (code : Code.lines (Code.store (some frame) name) = instructions.map Line.instr) :
    frame.Appends (Generator.store name) instructions := by
  intro generator framed
  have emitted := Generator.emits_store name generator rfl framed rfl
  simp only [firstFault, List.findSome?_nil] at emitted
  rw [emitted, Generator.extend, code, ← framed, Nat.add_zero]

/-- The code stores to a slot if the procedure owns the variable, and to a global word if not. -/
theorem storesIn_iff : frame.StoresIn name place ↔ frame.place name = place := by
  cases slot : frame.offset? name with
  | none =>
      have foreign := Frame.offset?_eq_none.1 slot
      have stores : frame.StoresIn name .globals := by
        apply appends_store
        simp [Code.store, Code.access, slot, Code.lines, Code.instr]
      cases place with
      | call => simp [Frame.StoresIn, Frame.place, slot, foreign]
      | globals => simp [Frame.place, foreign, stores]
  | some offset =>
      have owned : frame.procedure.owns name = true := by
        rw [← Bool.not_eq_false, ← Frame.offset?_eq_none, slot]
        simp
      have stores : frame.Appends (Generator.store name)
          [.sw .accumulator offset .stackPointer] := by
        apply appends_store
        simp [Code.store, Code.access, slot, Code.lines]
      cases place with
      | call => simp [Frame.StoresIn, Frame.place, slot, owned, stores]
      | globals =>
          have apart : ¬ frame.StoresIn name .globals := by
            intro global
            have same := stores.unique global
            cases same
          simp [Frame.place, owned, apart]

/-! ### The place of the interpreter -/

theorem set_eq_bindIn {environment : Environment} {scope : Scope} {value : Int32}
    (called : environment.frame = some scope) : environment.set name value =
      environment.bindIn name value (Writer.assignment.place environment.globals scope name) := by
  simp only [Environment.set, called, Writer.place]
  by_cases bound : name ∈ scope
  · simp [bound, Environment.bindIn, called]
  · by_cases global : name ∈ environment.globals
    · simp [bound, global, Environment.bindIn, called]
    · simp [bound, global, Environment.bindIn, called]

theorem declare_eq_bindIn {environment : Environment} {scope : Scope} {value : Int32}
    (called : environment.frame = some scope) : environment.declare name value =
      environment.bindIn name value .call := by
  simp only [Environment.declare, called, Environment.bindIn, Option.map_some]

theorem write_eq {state : Interpreter} {scope : Scope}
    (called : state.environment.frame = some scope) (value : Int32) :
    writer.write name value state =
      .ok () (state.bindIn name value (writer.place state.environment.globals scope name)) := by
  cases writer with
  | assignment =>
      rw [Interpreter.bindIn, ← set_eq_bindIn called]
      rfl
  | read =>
      rw [Interpreter.bindIn, Writer.place, ← declare_eq_bindIn called]
      rfl

theorem not_forall_insert_eq (scope : Scope) (name : String) :
    ¬ ∀ value : Int32, scope.insert name value = scope := by
  intro same
  have equal : (scope.insert name 0)[name]? = (scope.insert name 1)[name]? := by
    rw [same 0, same 1]
  simp at equal

/-- In a call the two places are different. -/
theorem bindIn_injective {state : Interpreter} {scope : Scope} {place' : Place}
    (called : state.environment.frame = some scope)
    (same : ∀ value, state.bindIn name value place = state.bindIn name value place') :
    place = place' := by
  have frames : ∀ value, (state.bindIn name value place).environment.frame =
      (state.bindIn name value place').environment.frame := by
    intro value
    rw [same value]
  cases place with
  | call =>
      cases place' with
      | call => rfl
      | globals =>
          apply absurd _ (not_forall_insert_eq scope name)
          simpa [Interpreter.bindIn, Environment.bindIn, called] using frames
  | globals =>
      cases place' with
      | call =>
          apply absurd _ (not_forall_insert_eq scope name)
          simpa [Interpreter.bindIn, Environment.bindIn, called, eq_comm] using frames
      | globals => rfl

theorem lands_iff {state : Interpreter} {scope : Scope}
    (called : state.environment.frame = some scope) :
    writer.Lands state name place ↔ writer.place state.environment.globals scope name = place := by
  constructor
  · intro lands
    apply bindIn_injective called
    intro value
    have written := lands value
    rw [write_eq called] at written
    exact congrArg stateAfter written
  · intro same value
    rw [write_eq called, same]

/-! ### Agreement -/

/-- In a state, a statement of this kind and the code in a frame write a variable in the same
place. -/
def Writer.Agrees (writer : Writer) (state : Interpreter) (frame : Frame) (name : String) : Prop :=
  ∀ place, writer.Lands state name place ↔ frame.StoresIn name place

theorem agrees_iff {state : Interpreter} {scope : Scope}
    (called : state.environment.frame = some scope) : writer.Agrees state frame name ↔
      writer.place state.environment.globals scope name = frame.place name := by
  simp only [Writer.Agrees, lands_iff called, storesIn_iff]
  constructor
  · intro agrees
    exact (agrees _).2 rfl
  · intro same place
    rw [same]

/-- The two places of a variable are the same if the procedure owns it, and else if an assignment
finds it among the globals. -/
theorem place_eq_iff {globals scope : Scope}
    (owned : frame.procedure.owns name = true → name ∈ scope) :
    writer.place globals scope name = frame.place name ↔
      frame.procedure.owns name = true ∨
        (writer = .assignment ∧ name ∉ scope ∧ name ∈ globals) := by
  cases writer with
  | read =>
      by_cases owns : frame.procedure.owns name = true
      · simp [Writer.place, Frame.place, owns]
      · simp [Writer.place, Frame.place, owns]
  | assignment =>
      by_cases owns : frame.procedure.owns name = true
      · simp [Writer.place, Frame.place, owns, owned owns]
      · simp [Writer.place, Frame.place, owns]

/-- How the two places of a variable are related in a state of a call, in the frame of its
procedure. -/
structure Placement (program : Program) (frame : Frame) (scope : Scope) (state : Interpreter) :
    Prop where
  /-- They are the same exactly if the procedure owns the variable or if an assignment finds it
  among the globals and not in the call scope. -/
  agrees_iff : ∀ (writer : Writer) (name : String), writer.Agrees state frame name ↔
    frame.procedure.owns name = true ∨
      (writer = .assignment ∧ name ∉ scope ∧ name ∈ state.environment.globals)
  /-- So they are for an assignment to a variable that the program declares, unless the body reads
  it from the input. -/
  declared : ∀ name ∈ program.globals, name ∉ frame.procedure.body.received →
    Writer.assignment.Agrees state frame name
  /-- A variable of the procedure is written in the call scope and in a slot. -/
  owned : ∀ name, frame.procedure.owns name = true →
    frame.StoresIn name .call ∧ ∀ writer : Writer, writer.Lands state name .call
  /-- Another variable that is read from the input is written in the call scope, but in a global
  word by the code. -/
  foreign : ∀ name, frame.procedure.owns name = false →
    frame.StoresIn name .globals ∧ Writer.read.Lands state name .call

/-- What holds at every moment at which the body of a procedure is executed. -/
theorem exists_placement {program : Program} {fuel : Nat} {input : Input} {capacity : Option Nat}
    {moment : Moment} {frame : Frame}
    (reached : Reaches (.start fuel program (.limited input capacity)) moment)
    (running : moment.owner = some frame.procedure) :
    ∃ scope, moment.state.environment.frame = some scope ∧
      Placement program frame scope moment.state := by
  have regular := ((regular_start fuel program input capacity).reaches reached).environment
  rw [running] at regular
  obtain ⟨scope, called, owned, declared⟩ := regular.exists_scope
  have agreement (writer : Writer) (name : String) : writer.Agrees moment.state frame name ↔
      frame.procedure.owns name = true ∨ (writer = .assignment ∧ name ∉ scope ∧
        name ∈ moment.state.environment.globals) :=
    (agrees_iff called).trans (place_eq_iff (owned name))
  apply Exists.intro scope
  apply And.intro called
  constructor
  · exact agreement
  · intro name global unread
    apply (agreement .assignment name).2
    by_cases owns : frame.procedure.owns name = true
    · exact .inl owns
    · have unbound : name ∉ scope := by
        intro bound
        exact (declared name bound global).elim owns unread
      exact .inr ⟨rfl, unbound, regular.declared name global⟩
  · intro name owns
    have stores : frame.StoresIn name .call := by
      rw [storesIn_iff, Frame.place, owns]
      rfl
    apply And.intro stores
    intro writer
    exact ((agreement writer name).2 (.inl owns) .call).2 stores
  · intro name unowned
    constructor
    · rw [storesIn_iff, Frame.place, unowned]
      rfl
    · exact (lands_iff called).2 rfl

/-! ### A variable that is read from the input in a procedure -/

/-- A procedure that reads a variable of the program from the input. -/
def readingProcedure : Procedure where
  name := "p"
  params := []
  locals := []
  body := .read "x"

/-- A program that prints the variable when the procedure has read it. -/
def readingProgram : Program where
  globals := ["x", "d"]
  procedures := [readingProcedure]
  body := .block [.assign "d" (.call "p" []), .write (.var "x")]

/-- The state in which its main statement starts, with the input `5`. -/
def readingStart : Interpreter :=
  (Interpreter.limited [53, 10] none).prepare readingProgram

/-- The moment at which the procedure is about to bind the value of the line. -/
def readingMoment : Moment where
  fuel := 0
  owner := some readingProcedure
  task := .declare "x" 5
  state := { readingStart.entered (readingProcedure.frame []) with input := [] }

theorem eq_ok_of_toOption {α : Type} {answer : Except Error α} {value : α}
    (found : answer.toOption = some value) : answer = .ok value := by
  cases answer with
  | ok other =>
      cases found
      rfl
  | error cause => cases found

theorem reaches_readingMoment :
    Reaches (.start 1 readingProgram (.limited [53, 10] none)) readingMoment := by
  have found : Interpreter.callee "p" 0 readingStart = .ok readingProcedure readingStart := by
    rw [callee_eq]
    rfl
  have number : Input.parseLine [53] = .ok 5 := eq_ok_of_toOption (by decide +kernel)
  have line : (readingStart.entered (readingProcedure.frame [])).input.readInteger =
      (.ok 5, []) := by
    rw [← number]
    rfl
  have received : Interpreter.readInteger (readingStart.entered (readingProcedure.frame [])) =
      .ok 5 readingMoment.state := by
    rw [readInteger_eq, line]
    rfl
  apply Relation.ReflTransGen.head (.within .blockFirst)
  apply Relation.ReflTransGen.head (.within .assigned)
  apply Relation.ReflTransGen.head (.call found rfl)
  exact Relation.ReflTransGen.single (.within (.declare received))

theorem exists_placement_readingMoment :
    Reaches (.start 1 readingProgram (.limited [53, 10] none)) readingMoment ∧
      readingMoment.owner = some readingProcedure ∧
      ∃ scope, readingMoment.state.environment.frame = some scope ∧
        Placement readingProgram { procedure := readingProcedure } scope readingMoment.state :=
  ⟨reaches_readingMoment, rfl, exists_placement reaches_readingMoment rfl⟩

/-- It is not so that statements and their code always write a variable in the same place. -/
theorem not_forall_writes_agree :
    ¬ ∀ (source : String) (program : Program) (text : String),
      parse source = .ok program → compile program = .ok text →
      ∀ (fuel : Nat) (input : Input) (capacity : Option Nat) (moment : Moment)
        (procedure : Procedure),
        Reaches (.start fuel program (.limited input capacity)) moment →
        moment.owner = some procedure →
        ∀ frame : Frame, frame.procedure = procedure →
          ∀ (writer : Writer), ∀ name ∈ writer.targets procedure.body,
            writer.Agrees moment.state frame name := by
  intro always
  have parsed : parse "VAR x, d; PROCEDURE p(); READLN(x); BEGIN d := p(); WRITELN(x); END;." =
      .ok readingProgram :=
    eq_ok_of_toOption (by decide +kernel)
  have compiled := compile_eq_ok.2 ⟨(rfl : readingProgram.fault? = none), rfl⟩
  have agrees := always _ _ _ parsed compiled 1 [53, 10] none _ _ reaches_readingMoment rfl
    { procedure := readingProcedure } rfl .read "x" List.mem_cons_self
  have lands : Writer.read.Lands readingMoment.state "x" .call := (lands_iff rfl).2 rfl
  have stores := storesIn_iff.1 ((agrees .call).1 lands)
  cases stores

end MiniPascal
