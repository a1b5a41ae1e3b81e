import MiniPascal.CommandLine.Directory

/-!
# The surroundings of the command line

`Host` lists what the command line asks of its surroundings. `World` is a host without effects: a
directory, the input, and what has been written so far, with a clock that stands still.
-/

namespace MiniPascal.CommandLine

/-- What the command line asks of its surroundings. -/
class Host (m : Type → Type) where
  /-- Writes to the standard output. -/
  print : String → m Unit
  /-- Writes to the standard error. -/
  complain : String → m Unit
  /-- Reads a source file. -/
  source : String → m (Except Error String)
  /-- Takes what is left of the standard input. -/
  input : m Input
  /-- Writes a file. -/
  save : String → String → m (Except Error Unit)
  /-- The time in thousandths of a second. -/
  clock : m Nat
  /-- Computes a value at this moment. -/
  compute {α : Type} : (Unit → α) → m α

/-- Surroundings held in memory. -/
structure World where
  directory : Directory := {}
  input : Input := []
  stdout : String := ""
  stderr : String := ""

namespace World

instance : Host (StateM World) where
  print text := modify fun world => { world with stdout := world.stdout ++ text }
  complain text := modify fun world => { world with stderr := world.stderr ++ text }
  source path := return (← get).directory.source path
  input := modifyGet fun world => (world.input, { world with input := [] })
  save path text := modifyGet fun world =>
    let (result, directory) := world.directory.write path text
    (result, { world with directory })
  clock := pure 0
  compute work := pure (work ())

end World

end MiniPascal.CommandLine
