import MiniPascal.Assembly.Basic
import MiniPascal.Run.Stream
import Mathlib.Logic.Function.Basic
import Mathlib.Logic.Relation

/-!
# A machine for the assembly

A MIPS machine that executes lines of assembly, one line at a step. A register or a word of memory
holds a 32-bit number or an address, and the two are kept apart: an address names a word of the
stack, a label of the data or a line of the code. The stack has no bounds. Whatever has no
meaning, such as an access through a number, to a word that was never written or to an address
that is no multiple of the word size, leaves the machine stuck.

A division by zero and a failing read of a number are traps of their own. The machine has its own
conventions, which code has to keep to: the size of a word, the registers with a special use, the
numbers of the services and the label at which it starts.
-/

namespace MiniPascal

/-- What a register or a word of memory holds. -/
inductive Word where
  | number (value : Int32)
  /-- The address of a word of the stack, counted in words from where the stack starts. -/
  | stack (position : Int)
  /-- The address of a label of the data. -/
  | data (label : Label)
  /-- The address of a line of the code. -/
  | code (place : Nat)
  deriving DecidableEq

/-- Why a machine stops before the program ends. -/
inductive Fault where
  | division
  /-- The service that reads a number found none. -/
  | reading
  deriving DecidableEq

/-- The state of the machine. -/
structure Machine where
  /-- The line to be executed. -/
  place : Nat
  registers : Register → Word
  /-- The upper word of a product, or the remainder of a division. -/
  high : Int32
  /-- The lower word of a product, or the quotient of a division. -/
  low : Int32
  stack : Int → Option Word
  data : Label → Option Word
  input : Input
  output : Array UInt8

namespace Machine

/-- What executing a line leads to. -/
inductive Outcome where
  | next (machine : Machine)
  | exit
  | trap (fault : Fault)
  | stuck

/-! ### Conventions -/

/-- Bytes in a word. -/
def wordSize : Nat := 4

/-- Holds the number of a service, and behind the service its answer. -/
def serviceRegister : Register := ⟨"$v0"⟩

/-- Holds what a service is given. -/
def argumentRegister : Register := ⟨"$a0"⟩

/-- Holds the address of the stack when a program starts. -/
def stackRegister : Register := ⟨"$sp"⟩

/-- Holds the address behind the last `jal`. -/
def linkRegister : Register := ⟨"$ra"⟩

/-- Where a program starts. -/
def entry : Label := ⟨"main"⟩

/-- What the system does for a program. -/
inductive Service where
  | printInteger
  | printText
  | readInteger
  | exit

/-- The service of a number. -/
def Service.ofNumber? (number : Int32) : Option Service :=
  if number = 1 then some .printInteger
  else if number = 4 then some .printText
  else if number = 5 then some .readInteger
  else if number = 10 then some .exit
  else none

/-- Whether a branch is taken. -/
def taken (comparison : Comparison) (first second : Int32) : Bool :=
  match comparison with
  | .eq => first == second
  | .ne => first != second
  | .lt => decide (first < second)
  | .gt => decide (second < first)
  | .le => decide (first ≤ second)
  | .ge => decide (second ≤ first)

/-! ### Data, input and output -/

/-- The first value of a word of the data. -/
def wordAt? (lines : List Line) (label : Label) : Option Int32 :=
  lines.findSome? fun
    | .word place value => if place = label then some value else none
    | _ => none

/-- The text at a label of the data, as it is written in a string literal. -/
def textAt? (lines : List Line) (label : Label) : Option String :=
  lines.findSome? fun
    | .asciiz place text => if place = label then some text else none
    | _ => none

/-- The text that a string literal stands for. -/
def unescape : List Char → List Char
  | '\\' :: 'n' :: rest => '\n' :: unescape rest
  | character :: rest => character :: unescape rest
  | [] => []

/-- The first line of an input, and what is behind its line end. -/
def cutLine : Input → List UInt8 × Input
  | [] => ([], [])
  | byte :: rest =>
      if byte = 10 then ([], rest) else (byte :: (cutLine rest).1, (cutLine rest).2)

/-- The signed number of 32 bits on a line, between blanks. -/
def numberOn? (line : List UInt8) : Option Int32 :=
  (String.fromUTF8? ⟨line.toArray⟩).bind fun text => Decimal.read? (Text.trim text.toList)

/-- Takes a line from an input, with the number on it. -/
def readNumber? (input : Input) : Option (Int32 × Input) :=
  if input = [] then none
  else (numberOn? (cutLine input).1).map fun value => (value, (cutLine input).2)

/-! ### Steps -/

/-- A machine at the next line. -/
def advance (machine : Machine) : Machine :=
  { machine with place := machine.place + 1 }

/-- Sets a register and goes on. -/
def set (machine : Machine) (dest : Register) (word : Word) : Machine :=
  { machine with
    place := machine.place + 1
    registers := Function.update machine.registers dest word }

/-- Writes bytes and goes on. -/
def print (machine : Machine) (text : String) : Machine :=
  { machine with
    place := machine.place + 1
    output := machine.output ++ text.toByteArray.data }

/-- The word at a distance in bytes from an address. -/
def load? (machine : Machine) (offset : Nat) : Word → Option Word
  | .stack position =>
      if offset % wordSize = 0 then machine.stack (position + (offset / wordSize : Nat))
      else none
  | .data label => if offset = 0 then machine.data label else none
  | _ => none

/-- Replaces the word at a distance in bytes from an address and goes on. Data has a word only
where it was laid out. -/
def store? (machine : Machine) (offset : Nat) (word : Word) : Word → Option Machine
  | .stack position =>
      if offset % wordSize = 0 then
        some { machine with
          place := machine.place + 1
          stack := Function.update machine.stack (position + (offset / wordSize : Nat))
            (some word) }
      else none
  | .data label =>
      if offset = 0 ∧ (machine.data label).isSome then
        some { machine with
          place := machine.place + 1
          data := Function.update machine.data label (some word) }
      else none
  | _ => none

/-- A word moved by a constant: a number wraps around, and an address of the stack stays at the
start of a word. -/
def moveBy? (value : Int32) : Word → Option Word
  | .number number => some (.number (number + value))
  | .stack position =>
      if (wordSize : Int) ∣ value.toInt then
        some (.stack (position + value.toInt / wordSize))
      else none
  | _ => none

/-- Goes on at a label of the code. -/
def jump (machine : Machine) (lines : List Line) (label : Label) : Outcome :=
  match lines.idxOf? (.label label) with
  | some place => .next { machine with place }
  | none => .stuck

/-- Does with the numbers in two registers what `use` says. -/
def withNumbers (machine : Machine) (left right : Register)
    (use : Int32 → Int32 → Outcome) : Outcome :=
  match machine.registers left, machine.registers right with
  | .number first, .number second => use first second
  | _, _ => .stuck

/-- Does what the number in the service register asks for. -/
def serve (machine : Machine) (lines : List Line) : Outcome :=
  match machine.registers serviceRegister with
  | .number number =>
      match Service.ofNumber? number with
      | some .printInteger =>
          match machine.registers argumentRegister with
          | .number value => .next (machine.print (Decimal.render value))
          | _ => .stuck
      | some .printText =>
          match machine.registers argumentRegister with
          | .data label =>
              match textAt? lines label with
              | some text => .next (machine.print (String.ofList (unescape text.toList)))
              | none => .stuck
          | _ => .stuck
      | some .readInteger =>
          match readNumber? machine.input with
          | some (value, input) =>
              .next ({ machine with input }.set serviceRegister (.number value))
          | none => .trap .reading
      | some .exit => .exit
      | none => .stuck
  | _ => .stuck

/-- Executes an instruction. -/
def execute (machine : Machine) (lines : List Line) : Instr → Outcome
  | .li dest value => .next (machine.set dest (.number value))
  | .la dest label =>
      if (wordAt? lines label).isSome ∨ (textAt? lines label).isSome then
        .next (machine.set dest (.data label))
      else .stuck
  | .lw dest offset base =>
      match machine.load? offset (machine.registers base) with
      | some word => .next (machine.set dest word)
      | none => .stuck
  | .sw source offset base =>
      match machine.store? offset (machine.registers source) (machine.registers base) with
      | some machine => .next machine
      | none => .stuck
  | .move dest source => .next (machine.set dest (machine.registers source))
  | .addu dest left right =>
      machine.withNumbers left right fun first second =>
        .next (machine.set dest (.number (first + second)))
  | .subu dest left right =>
      machine.withNumbers left right fun first second =>
        .next (machine.set dest (.number (first - second)))
  | .addiu dest source value =>
      match moveBy? value (machine.registers source) with
      | some word => .next (machine.set dest word)
      | none => .stuck
  | .mult left right =>
      machine.withNumbers left right fun first second =>
        .next { machine.advance with
          high := Int32.ofInt (first.toInt * second.toInt / 0x100000000)
          low := first * second }
  | .div left right =>
      machine.withNumbers left right fun first second =>
        if second = 0 then .trap .division
        else .next { machine.advance with high := first % second, low := first / second }
  | .mflo dest => .next (machine.set dest (.number machine.low))
  | .mfhi dest => .next (machine.set dest (.number machine.high))
  | .branch comparison left right label =>
      machine.withNumbers left right fun first second =>
        if taken comparison first second then machine.jump lines label
        else .next machine.advance
  | .j label => machine.jump lines label
  | .jal label =>
      jump { machine with
        registers := Function.update machine.registers linkRegister (.code (machine.place + 1)) }
        lines label
  | .jr source =>
      match machine.registers source with
      | .code place => .next { machine with place }
      | _ => .stuck
  | .syscall => machine.serve lines

/-- Executes the line at which the machine stands. Lines that hold no instruction do nothing, and
data cannot be executed. -/
def step (lines : List Line) (machine : Machine) : Outcome :=
  match lines[machine.place]? with
  | some (.instr instruction) => machine.execute lines instruction
  | some (.label _) | some (.directive _) | some (.comment _) => .next machine.advance
  | some (.word _ _) | some (.asciiz _ _) | none => .stuck

/-- The machine before a program starts: at the entry, with an empty stack, the words of the data
and nothing written. -/
def start? (lines : List Line) (input : Input) : Option Machine :=
  (lines.idxOf? (.label entry)).map fun place =>
    { place
      registers := Function.update (fun _ => .number 0) stackRegister (.stack 0)
      high := 0
      low := 0
      stack := fun _ => none
      data := fun label => (wordAt? lines label).map Word.number
      input
      output := #[] }

/-- One machine leads to another in finitely many steps. -/
def Steps (lines : List Line) : Machine → Machine → Prop :=
  Relation.ReflTransGen fun machine after => machine.step lines = .next after

end Machine

end MiniPascal
