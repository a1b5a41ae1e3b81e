import MiniPascal.Proofs.Compile.Labels
import MiniPascal.Proofs.Machine.Basic

/-!
# Running pieces of code

A machine is described by the lines ahead of it. `Runs` says that it leads through the first of
them to the others, and each small piece of code has a law that gives the machine behind it. Words
of the stack that have been written stay written, so they can always be popped.
-/

namespace MiniPascal

namespace Machine

variable {lines rest : List Line} {machine after final : Machine}

theorem set_self (machine : Machine) (dest : Register) (word : Word) :
    (machine.set dest word).registers dest = word := by
  simp only [set, Function.update_self]

theorem set_of_ne {register dest : Register} (other : register ≠ dest) (machine : Machine)
    (word : Word) : (machine.set dest word).registers register = machine.registers register := by
  simp only [set, Function.update_of_ne other]

/-- The code and the machine have the same register for the stack. -/
theorem stackRegister_eq : stackRegister = .stackPointer :=
  rfl

/-- The machine leaves the address behind a call where the code takes it from. -/
theorem linkRegister_eq : linkRegister = .returnAddress :=
  rfl

/-- The lines ahead of a machine. -/
def ahead (lines : List Line) (machine : Machine) : List Line :=
  lines.drop machine.place

/-- A machine leads to another one that has `rest` ahead. -/
structure Runs (lines : List Line) (machine after : Machine) (rest : List Line) : Prop where
  steps : Steps lines machine after
  ahead : after.ahead lines = rest

theorem Runs.trans {middle : List Line} (first : Runs lines machine after middle)
    (second : Runs lines after final rest) : Runs lines machine final rest where
  steps := first.steps.trans second.steps
  ahead := second.ahead

theorem getElem?_of_ahead {line : Line} (here : machine.ahead lines = line :: rest) :
    lines[machine.place]? = some line := by
  have first : (lines.drop machine.place)[0]? = some line := by
    rw [show lines.drop machine.place = line :: rest from here]
    rfl
  simpa using first

theorem drop_of_ahead {line : Line} (here : machine.ahead lines = line :: rest) :
    lines.drop (machine.place + 1) = rest := by
  rw [← List.drop_drop, show lines.drop machine.place = line :: rest from here]
  rfl

/-- An instruction that goes on at the next line. -/
theorem runs_instr {instruction : Instr} (here : machine.ahead lines = .instr instruction :: rest)
    (run : machine.execute lines instruction = .next after)
    (next : after.place = machine.place + 1) : Runs lines machine after rest where
  steps := Relation.ReflTransGen.single (by rw [step, getElem?_of_ahead here]; exact run)
  ahead := by rw [ahead, next, drop_of_ahead here]

/-- A label does nothing. -/
theorem runs_label {label : Label} (here : machine.ahead lines = .label label :: rest) :
    Runs lines machine machine.advance rest where
  steps := Relation.ReflTransGen.single (by rw [step, getElem?_of_ahead here])
  ahead := drop_of_ahead here

/-! ### Computations -/

/-- Another machine differs in no more than its place and its registers. -/
structure SameMemory (machine after : Machine) : Prop where
  stack : after.stack = machine.stack
  data : after.data = machine.data
  input : after.input = machine.input
  output : after.output = machine.output

/-- Another machine differs in no more than its place and the registers of a computation. -/
structure Untouched (machine after : Machine) : Prop extends SameMemory machine after where
  pointer : after.registers .stackPointer = machine.registers .stackPointer
  returnAddress : after.registers .returnAddress = machine.registers .returnAddress

theorem SameMemory.trans {final : Machine} (first : SameMemory machine after)
    (second : SameMemory after final) : SameMemory machine final where
  stack := second.stack.trans first.stack
  data := second.data.trans first.data
  input := second.input.trans first.input
  output := second.output.trans first.output

theorem Untouched.trans {final : Machine} (first : Untouched machine after)
    (second : Untouched after final) : Untouched machine final where
  toSameMemory := first.toSameMemory.trans second.toSameMemory
  pointer := second.pointer.trans first.pointer
  returnAddress := second.returnAddress.trans first.returnAddress

theorem untouched_set {dest : Register} (machine : Machine) (word : Word)
    (pointer : .stackPointer ≠ dest) (returnAddress : .returnAddress ≠ dest) :
    Untouched machine (machine.set dest word) where
  toSameMemory := ⟨rfl, rfl, rfl, rfl⟩
  pointer := set_of_ne pointer machine word
  returnAddress := set_of_ne returnAddress machine word

theorem untouched_accumulator (machine : Machine) (word : Word) :
    Untouched machine (machine.set .accumulator word) :=
  untouched_set machine word (by decide) (by decide)

theorem untouched_place (machine : Machine) (place : Nat) :
    Untouched machine { machine with place } :=
  ⟨⟨rfl, rfl, rfl, rfl⟩, rfl, rfl⟩

/-! ### Services -/

/-- The code asks for a service with the number and in the registers that the machine has for it. -/
theorem serve_printInteger {value : Int32}
    (asked : machine.registers .accumulator = .number Generator.printInteger)
    (argument : machine.registers .argument = .number value) :
    machine.serve lines = .next (machine.print (Decimal.render value)) := by
  have asked : machine.registers serviceRegister = _ := asked
  have argument : machine.registers argumentRegister = _ := argument
  simp only [serve, asked, argument]
  rfl

theorem serve_printText {label : Label} {text : String}
    (asked : machine.registers .accumulator = .number Generator.printText)
    (argument : machine.registers .argument = .data label)
    (found : textAt? lines label = some text) :
    machine.serve lines = .next (machine.print (String.ofList (unescape text.toList))) := by
  have asked : machine.registers serviceRegister = _ := asked
  have argument : machine.registers argumentRegister = _ := argument
  simp only [serve, asked, argument, found]
  rfl

theorem serve_exit (asked : machine.registers .accumulator = .number Generator.exit) :
    machine.serve lines = .exit := by
  have asked : machine.registers serviceRegister = _ := asked
  simp only [serve, asked]
  rfl

theorem cutLine_eq (input : Input) : cutLine input = input.splitLine := by
  induction input with
  | nil => rfl
  | cons byte rest ih =>
      rw [cutLine, ih]
      by_cases ending : byte = 10 <;> simp [Input.splitLine, Input.lineEnd, ending]

theorem numberOn?_eq (line : List UInt8) : numberOn? line = (Input.parseLine line).toOption := by
  rw [numberOn?, Input.parseLine]
  cases String.fromUTF8? ⟨line.toArray⟩ with
  | none => rfl
  | some text =>
      simp only [Option.bind_some]
      cases Decimal.read? (Text.trim text.toList) <;> rfl

/-- The machine reads the numbers that a running program reads. -/
theorem readNumber?_eq (input : Input) :
    readNumber? input = match input.readInteger with
      | (.ok value, rest) => some (value, rest)
      | (.error _, _) => none := by
  rw [readNumber?, Input.readInteger, numberOn?_eq, cutLine_eq]
  split
  · rfl
  · cases Input.parseLine input.splitLine.1 <;> rfl

theorem serve_readInteger
    (asked : machine.registers .accumulator = .number Generator.readInteger) :
    machine.serve lines = match machine.input.readInteger with
      | (.ok value, input) => .next ({ machine with input }.set .accumulator (.number value))
      | (.error _, _) => .trap .reading := by
  have asked : machine.registers serviceRegister = _ := asked
  simp only [serve, asked, readNumber?_eq]
  rcases machine.input.readInteger with ⟨_ | value, rest⟩ <;> rfl

/-! ### Jumps -/

/-- A branch is taken when its comparison is true of the two numbers. -/
theorem taken_eq (comparison : Comparison) (first second : Int32) :
    taken comparison first second = comparison.holds first second := by
  cases comparison with
  | eq | lt | gt | le | ge => rfl
  | ne =>
      rw [Bool.eq_iff_iff]
      simp [taken, Comparison.holds]

/-- The first place of an element behind others. -/
theorem idxOf?_append_of_notMem {α : Type} [BEq α] [LawfulBEq α] {element : α}
    {front behind : List α} (absent : element ∉ front) :
    (front ++ element :: behind).idxOf? element = some front.length := by
  have missed : front.findIdx? (· == element) = none := List.idxOf?_eq_none_iff.2 absent
  rw [List.idxOf?, List.findIdx?_append, missed]
  simp [List.findIdx?_cons]

/-- Where a label stands, if it stands only once. -/
theorem idxOf?_label {label : Label} {front : List Line}
    (distinct : (definedLabels (front ++ .label label :: rest)).Nodup) :
    (front ++ .label label :: rest).idxOf? (.label label) = some front.length := by
  rw [definedLabels_append, List.nodup_append] at distinct
  have absent : Line.label label ∉ front := fun present =>
    distinct.2.2 label (List.mem_filterMap.2 ⟨_, present, rfl⟩) label
      (List.mem_filterMap.2 ⟨_, List.mem_cons_self, rfl⟩) rfl
  exact idxOf?_append_of_notMem absent

/-- The place behind which `rest` stands. -/
def placeOf (lines rest : List Line) : Nat :=
  lines.length - rest.length

/-- A jump to a label that stands once leads behind it. -/
theorem runs_jump {instruction : Instr} {label : Label} {origin : Machine}
    {following : List Line} (distinct : (definedLabels lines).Nodup)
    (here : machine.ahead lines = .instr instruction :: following)
    (jumps : machine.execute lines instruction = origin.jump lines label)
    (target : .label label :: rest <:+ lines) :
    Runs lines machine { origin with place := placeOf lines rest } rest := by
  obtain ⟨front, rfl⟩ := target
  have found := idxOf?_label distinct
  have jumped : Steps (front ++ .label label :: rest) machine
      { origin with place := front.length } :=
    Relation.ReflTransGen.single (by
      rw [step, getElem?_of_ahead here]
      simp only [jumps, jump, found])
  have behind := @runs_label (front ++ .label label :: rest) rest
    { origin with place := front.length } label (by simp [ahead])
  have same : placeOf (front ++ .label label :: rest) rest = front.length + 1 := by
    simp only [placeOf, List.length_append, List.length_cons]
    omega
  rw [same]
  exact { steps := jumped.trans behind.steps, ahead := behind.ahead }

/-! ### The stack -/

/-- A machine that has pushed a word. -/
def pushed (machine : Machine) (position : Int) (word : Word) : Machine :=
  { machine with
    place := machine.place + 2
    registers := Function.update machine.registers .stackPointer (.stack (position - 1))
    stack := Function.update machine.stack (position - 1) (some word) }

/-- A machine that has popped a word into a register. -/
def popped (machine : Machine) (register : Register) (position : Int) (word : Word) : Machine :=
  { machine with
    place := machine.place + 2
    registers := Function.update (Function.update machine.registers register word) .stackPointer
      (.stack (position + 1)) }

theorem runs_push {register : Register} {position : Int}
    (here : machine.ahead lines = Code.lines (Code.push register) ++ rest)
    (pointer : machine.registers .stackPointer = .stack position)
    (other : register ≠ .stackPointer) :
    Runs lines machine (machine.pushed position (machine.registers register)) rest := by
  have moved : Runs lines machine (machine.set .stackPointer (.stack (position - 1))) _ :=
    runs_instr here (by rw [execute, pointer]; rfl) rfl
  refine moved.trans (runs_instr moved.ahead ?_ rfl)
  simp [execute, set, store?, pushed, Function.update_of_ne other]

theorem runs_pop {register : Register} {position : Int} {word : Word}
    (here : machine.ahead lines = Code.lines (Code.pop register) ++ rest)
    (pointer : machine.registers .stackPointer = .stack position)
    (top : machine.stack position = some word) (other : register ≠ .stackPointer) :
    Runs lines machine (machine.popped register position word) rest := by
  have loaded : Runs lines machine (machine.set register word) _ :=
    runs_instr here (by simp [execute, pointer, load?, top]) rfl
  refine loaded.trans (runs_instr loaded.ahead ?_ rfl)
  simp only [execute, set, Function.update_of_ne other.symm, pointer]
  rfl

/-- Storing a register to a word above the stack pointer. -/
theorem runs_storeSlot {source : Register} {index : Nat} {position : Int}
    (here : machine.ahead lines =
      .instr (.sw source (index * Frame.wordSize) .stackPointer) :: rest)
    (pointer : machine.registers .stackPointer = .stack position) :
    Runs lines machine
      { machine with
        place := machine.place + 1
        stack := Function.update machine.stack (position + index)
          (some (machine.registers source)) } rest :=
  runs_instr here (by simp [execute, pointer, store?, Frame.wordSize, wordSize]) rfl

/-- The stack of another machine is the same up to one word that it has written. -/
def StackFrom (machine after : Machine) : Prop :=
  after.stack = machine.stack ∨
    ∃ position word, after.stack = Function.update machine.stack position (some word)

theorem stackFrom_jump {label : Label} {origin : Machine} (same : origin.stack = machine.stack)
    (run : origin.jump lines label = .next after) : StackFrom machine after := by
  rw [jump] at run
  split at run <;> cases run
  exact .inl same

theorem stackFrom_withNumbers {left right : Register} {use : Int32 → Int32 → Outcome}
    (uses : ∀ first second, use first second = .next after → StackFrom machine after)
    (run : machine.withNumbers left right use = .next after) : StackFrom machine after := by
  rw [withNumbers] at run
  split at run
  · exact uses _ _ run
  · cases run

theorem stackFrom_store? {offset : Nat} {word address : Word}
    (run : machine.store? offset word address = some after) : StackFrom machine after := by
  cases address with
  | number value => cases run
  | stack position =>
      rw [store?] at run
      split at run <;> cases run
      exact .inr ⟨_, _, rfl⟩
  | data label =>
      rw [store?] at run
      split at run <;> cases run
      exact .inl rfl
  | code place => cases run

theorem stackFrom_serve (run : machine.serve lines = .next after) : StackFrom machine after := by
  rw [serve] at run
  repeat' split at run
  all_goals cases run
  all_goals exact .inl rfl

/-- Only the stores of a machine change its stack, and one word at a time. -/
theorem stackFrom_execute {instruction : Instr}
    (run : machine.execute lines instruction = .next after) : StackFrom machine after := by
  cases instruction with
  | li | move | mflo | mfhi => cases run; exact .inl rfl
  | la dest label =>
      rw [execute] at run
      split at run <;> cases run
      exact .inl rfl
  | lw dest offset base =>
      rw [execute] at run
      split at run <;> cases run
      exact .inl rfl
  | sw source offset base =>
      rw [execute] at run
      split at run <;> cases run
      rename_i stored
      exact stackFrom_store? stored
  | addu | subu | mult =>
      refine stackFrom_withNumbers (fun first second used => ?_) run
      cases used
      exact .inl rfl
  | addiu dest source value =>
      rw [execute] at run
      split at run <;> cases run
      exact .inl rfl
  | div left right =>
      refine stackFrom_withNumbers (fun first second used => ?_) run
      split at used <;> cases used
      exact .inl rfl
  | branch comparison left right label =>
      refine stackFrom_withNumbers (fun first second used => ?_) run
      split at used
      · exact stackFrom_jump rfl used
      · cases used
        exact .inl rfl
  | j label => exact stackFrom_jump rfl run
  | jal label => exact stackFrom_jump (by rfl) run
  | jr source =>
      rw [execute] at run
      split at run <;> cases run
      exact .inl rfl
  | syscall => exact stackFrom_serve run

/-- A step keeps words of the stack that have been written. -/
theorem isSome_stack_of_step {position : Int} (run : machine.step lines = .next after)
    (written : (machine.stack position).isSome) : (after.stack position).isSome := by
  have same : StackFrom machine after := by
    rw [step] at run
    split at run
    · exact stackFrom_execute run
    all_goals cases run
    all_goals exact .inl rfl
  rcases same with same | ⟨place, word, same⟩
  · rw [same]
    exact written
  · rw [same, Function.update_apply]
    split
    · rfl
    · exact written

/-- A run keeps words of the stack that have been written. -/
theorem Steps.isSome_stack {position : Int} (run : Steps lines machine after)
    (written : (machine.stack position).isSome) : (after.stack position).isSome := by
  induction run with
  | refl => exact written
  | tail _ last ih => exact isSome_stack_of_step last ih

end Machine

end MiniPascal
