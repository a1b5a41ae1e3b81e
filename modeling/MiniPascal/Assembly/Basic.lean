import MiniPascal.Text.Decimal
import MiniPascal.Tree.Operator

/-!
# Assembly

Assembly for a MIPS machine as a list of lines, and the text of a line. A label starts its line;
every instruction and directive is indented by a tab.
-/

namespace MiniPascal

/-- A register of the machine. -/
structure Register where
  name : String
  deriving DecidableEq, Repr

namespace Register

/-- Holds the value of the expression just computed, and the number of a system call. -/
def accumulator : Register := ⟨"$v0"⟩

/-- Holds the left operand, or the address of a global word. -/
def scratch : Register := ⟨"$t0"⟩

/-- Holds the argument of a system call. -/
def argument : Register := ⟨"$a0"⟩

/-- Holds the address of the top word of the stack. -/
def stackPointer : Register := ⟨"$sp"⟩

/-- Holds the address to which a procedure returns. -/
def returnAddress : Register := ⟨"$ra"⟩

end Register

/-- A name for a place in the data or in the code. -/
structure Label where
  name : String
  deriving DecidableEq, Repr

namespace Label

/-- Where the program starts. -/
def main : Label := ⟨"main"⟩

/-- The text that ends a line of output. -/
def newLine : Label := ⟨"newLine"⟩

/-- The word of a global variable. -/
def global (name : String) : Label := ⟨"var" ++ name⟩

/-- The code of a procedure. -/
def procedure (name : String) : Label := ⟨"proc" ++ name⟩

/-- A label that a number makes unique. -/
def numbered (purpose : String) (number : Nat) : Label := ⟨purpose ++ Nat.repr number⟩

end Label

/-- The instruction name of a branch taken when a comparison holds. -/
def Comparison.mnemonic : Comparison → String
  | .eq => "beq"
  | .ne => "bne"
  | .lt => "blt"
  | .gt => "bgt"
  | .le => "ble"
  | .ge => "bge"

/-- An instruction. -/
inductive Instr where
  | li (dest : Register) (value : Int32)
  | la (dest : Register) (label : Label)
  | lw (dest : Register) (offset : Nat) (base : Register)
  | sw (source : Register) (offset : Nat) (base : Register)
  | move (dest source : Register)
  | addu (dest left right : Register)
  | subu (dest left right : Register)
  | addiu (dest source : Register) (value : Int32)
  | mult (left right : Register)
  | div (left right : Register)
  | mflo (dest : Register)
  | mfhi (dest : Register)
  | branch (comparison : Comparison) (left right : Register) (label : Label)
  | j (label : Label)
  | jal (label : Label)
  | jr (source : Register)
  | syscall
  deriving DecidableEq, Repr

/-- An instruction name in front of its operands. -/
def operation (mnemonic : String) : List String → String
  | [] => mnemonic
  | operands => mnemonic ++ " " ++ ", ".intercalate operands

/-- The operand for the word at a distance in bytes from an address. -/
def wordAt (offset : Nat) (base : Register) : String :=
  Nat.repr offset ++ "(" ++ base.name ++ ")"

/-- The text of an instruction. -/
def Instr.render : Instr → String
  | .li dest value => operation "li" [dest.name, Decimal.render value]
  | .la dest label => operation "la" [dest.name, label.name]
  | .lw dest offset base => operation "lw" [dest.name, wordAt offset base]
  | .sw source offset base => operation "sw" [source.name, wordAt offset base]
  | .move dest source => operation "move" [dest.name, source.name]
  | .addu dest left right => operation "addu" [dest.name, left.name, right.name]
  | .subu dest left right => operation "subu" [dest.name, left.name, right.name]
  | .addiu dest source value => operation "addiu" [dest.name, source.name, Decimal.render value]
  | .mult left right => operation "mult" [left.name, right.name]
  | .div left right => operation "div" [left.name, right.name]
  | .mflo dest => operation "mflo" [dest.name]
  | .mfhi dest => operation "mfhi" [dest.name]
  | .branch comparison left right label =>
      operation comparison.mnemonic [left.name, right.name, label.name]
  | .j label => operation "j" [label.name]
  | .jal label => operation "jal" [label.name]
  | .jr source => operation "jr" [source.name]
  | .syscall => operation "syscall" []

/-- A line of assembly. -/
inductive Line where
  | label (place : Label)
  | instr (instruction : Instr)
  | directive (text : String)
  | comment (text : String)
  /-- A word of data with its first value. -/
  | word (place : Label) (value : Int32)
  /-- A text of data that ends with a zero byte, written as in a string literal. -/
  | asciiz (place : Label) (text : String)
  deriving DecidableEq, Repr

namespace Line

/-- The text of a line with its line end. -/
def render : Line → String
  | .label place => place.name ++ ":\n"
  | .instr instruction => "\t" ++ instruction.render ++ "\n"
  | .directive text => "\t" ++ text ++ "\n"
  | .comment text => "# " ++ text ++ "\n"
  | .word place value => place.name ++ ": .word " ++ Decimal.render value ++ "\n"
  | .asciiz place text => place.name ++ ": .asciiz \"" ++ text ++ "\"\n"

/-- The text of lines, in order. -/
def renderAll (lines : List Line) : String :=
  String.join (lines.map render)

end Line

end MiniPascal
