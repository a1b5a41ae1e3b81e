import MiniPascal.Error
import MiniPascal.Text.Blank
import MiniPascal.Text.Decimal

/-!
# Input and output of a running program

The input is a list of bytes, read line by line; each read takes one value from one line. The
output is a sequence of bytes that may have a capacity.
-/

namespace MiniPascal

/-- The error of reading behind the end of the input. -/
def Error.endOfInput : Error :=
  .input "unexpected end of input"

/-- The error of a line that holds no value. -/
def Error.notAnInteger (text : String) : Error :=
  .input s!"'{text}' is not an integer"

/-- The error of bytes that are no UTF-8 text. -/
def Error.invalidText : Error :=
  .io "stream did not contain valid UTF-8"

/-- The error of an output that takes no more bytes. -/
def Error.outputFull : Error :=
  .io "failed to write whole buffer"

/-- The bytes that are left to read. -/
abbrev Input := List UInt8

namespace Input

/-- The byte that ends a line. -/
def lineEnd : UInt8 := 10

/-- The first line without its line end, and what follows it. -/
def splitLine (input : Input) : List UInt8 × Input :=
  (input.takeWhile (· ≠ lineEnd), (input.dropWhile (· ≠ lineEnd)).tail)

/-- The value on a line: a signed decimal number between blanks. -/
def parseLine (line : List UInt8) : Except Error Int32 :=
  match String.fromUTF8? ⟨line.toArray⟩ with
  | none => .error .invalidText
  | some text =>
      let number := Text.trim text.toList
      match Decimal.read? number with
      | some value => .ok value
      | none => .error (.notAnInteger (String.ofList number))

/-- Reads the value on the first line. The line is used up also when it holds none. -/
def readInteger (input : Input) : Except Error Int32 × Input :=
  if input = [] then (.error .endOfInput, input)
  else (parseLine input.splitLine.1, input.splitLine.2)

end Input

/-- The bytes written so far, and how many can be written in all. -/
structure Output where
  written : Array UInt8 := #[]
  capacity : Option Nat := none

namespace Output

/-- The bytes written so far as a text. -/
def text (output : Output) : String :=
  (String.fromUTF8? ⟨output.written⟩).getD ""

/-- Writes a text. If it does not fit, the bytes that fit are written and the write fails. -/
def write (output : Output) (text : String) : Except Error Unit × Output :=
  let bytes := text.toByteArray.data
  match output.capacity with
  | none => (.ok (), { output with written := output.written ++ bytes })
  | some capacity =>
      let room := capacity - output.written.size
      if bytes.size ≤ room then (.ok (), { output with written := output.written ++ bytes })
      else (.error .outputFull, { output with written := output.written ++ bytes.take room })

end Output

end MiniPascal
