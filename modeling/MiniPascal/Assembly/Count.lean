import MiniPascal.Text.Word

/-!
# Counting instructions

An instruction is recognised in a text of assembly by its line: blanks or tabs at the start, then
a word of small letters. That leaves out labels, comments and directives.
-/

namespace MiniPascal

/-- Whether a text starts with a word of small letters and nothing else. -/
def startsWithMnemonic (text : List Char) : Bool :=
  text.head?.any Char.isLower && !(text.dropWhile Char.isLower).head?.any Text.isWord

/-- Whether a line holds an instruction. -/
def isInstructionLine (line : List Char) : Bool :=
  let indentation (character : Char) : Bool := character = ' ' || character = '\t'
  line.head?.any indentation && startsWithMnemonic (line.dropWhile indentation)

/-- How many instructions a text of assembly holds. -/
def instructionCount (text : String) : Nat :=
  (text.toList.splitOn '\n').countP isInstructionLine

end MiniPascal
