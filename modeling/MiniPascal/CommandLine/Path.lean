/-!
# Paths

A path is a text of names between slashes. Only the last name matters here: it is split at its last
full stop into a stem and an extension, unless nothing stands before that full stop.
-/

namespace MiniPascal.CommandLine.Path

/-- The parts between the slashes of a path. -/
def parts (path : String) : List String :=
  (path.toList.splitOn '/').map String.ofList

/-- The last name of a path. A path that ends by going up, or names nothing, has none. -/
def fileName? (path : String) : Option String :=
  match ((parts path).filter fun part => part ≠ "" && part ≠ ".").getLast? with
  | some ".." => none
  | name => name

/-- Splits a file name into its stem and its extension. -/
def splitExtension (name : String) : String × Option String :=
  let letters := name.toList.reverse
  match letters.dropWhile (· ≠ '.') with
  | [] => (name, none)
  | _ :: [] => (name, none)
  | _ :: stem =>
      (String.ofList stem.reverse, some (String.ofList (letters.takeWhile (· ≠ '.')).reverse))

/-- The extension of a path's file name. -/
def extension? (path : String) : Option String :=
  (fileName? path).bind fun name => (splitExtension name).2

/-- The stem of a path's file name. -/
def stem? (path : String) : Option String :=
  (fileName? path).map fun name => (splitExtension name).1

/-- The file name with another extension in place of its own. A path without a file name stays. -/
def withExtension (name extension : String) : String :=
  match stem? name with
  | some stem => stem ++ "." ++ extension
  | none => name

/-- Where the assembly of a source goes if nothing else is said: into the working directory, under
the stem of the source. -/
def assembly (source : String) : String :=
  withExtension ((stem? source).getD "") "asm"

end MiniPascal.CommandLine.Path
