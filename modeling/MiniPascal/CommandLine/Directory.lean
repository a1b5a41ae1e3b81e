import MiniPascal.CommandLine.Path
import MiniPascal.Run.Stream
import Std.Data.TreeMap

/-!
# Directories

The files and folders below a working directory. A path is followed name by name and leads nowhere
if it passes through something that is no folder. The folders above the working directory and the
root are folders of which nothing else is known.
-/

namespace MiniPascal

/-- The error of a path that leads nowhere. -/
def Error.noSuchFile : Error :=
  .io "No such file or directory (os error 2)"

/-- The error of a path that passes through a file. -/
def Error.notAFolder : Error :=
  .io "Not a directory (os error 20)"

/-- The error of writing to a folder. -/
def Error.isAFolder : Error :=
  .io "Is a directory (os error 21)"

namespace CommandLine

/-- The error of a source that is not there. -/
def sourceMissing (path : String) : Error :=
  .fileRead s!"Input file does not exist: {path}"

/-- The error of a source that is a folder. -/
def sourceIsFolder (path : String) : Error :=
  .fileRead s!"{path} is a directory"

/-- The text of a source file. -/
def sourceText (content : List UInt8) : Except Error String :=
  match String.fromUTF8? ⟨content.toArray⟩ with
  | some text => .ok text
  | none => .error .invalidText

/-- A file with its content, or a folder. -/
inductive Node where
  | file (content : List UInt8)
  | folder
  deriving DecidableEq, Repr

/-- The nodes below a working directory, by the names that lead to them. -/
structure Directory where
  nodes : Std.TreeMap (List String) Node := ∅

namespace Directory

/-- The place of the root of all folders. -/
def root : List String := ["/"]

/-- Whether a place is the working directory, a folder above it, or the root. -/
def isOuter (place : List String) : Bool :=
  place.all (· = "..") || place = root

/-- The node at a place. -/
def node? (directory : Directory) (place : List String) : Option Node :=
  if isOuter place then some .folder else directory.nodes[place]?

/-- The place one folder up. -/
def parent (place : List String) : List String :=
  if place = root then root
  else if isOuter place then place ++ [".."]
  else place.dropLast

/-- Follows the parts of a path from a place. -/
def follow (directory : Directory) (place : List String) :
    List String → Except Error (List String)
  | [] => if (directory.node? place).isSome then .ok place else .error .noSuchFile
  | part :: rest =>
      match directory.node? place with
      | none => .error .noSuchFile
      | some (.file _) => .error .notAFolder
      | some .folder =>
          if part = "" || part = "." then directory.follow place rest
          else if part = ".." then directory.follow (parent place) rest
          else directory.follow (place ++ [part]) rest

/-- Where a path starts. -/
def start (path : String) : List String :=
  if path.toList.head? = some '/' then root else []

/-- The node that a path leads to. An empty path leads nowhere. -/
def find? (directory : Directory) (path : String) : Option Node :=
  if path = "" then none
  else
    match directory.follow (start path) (Path.parts path) with
    | .ok place => directory.node? place
    | .error _ => none

/-- The text of the source at a path. -/
def source (directory : Directory) (path : String) : Except Error String :=
  match directory.find? path with
  | none => .error (sourceMissing path)
  | some .folder => .error (sourceIsFolder path)
  | some (.file content) => sourceText content

/-- The place of the file to write at a path: the last name must be in an existing folder, and must
not be a folder. -/
def target (directory : Directory) (path : String) : Except Error (List String) :=
  let parts := Path.parts path
  let named := (parts.reverse.dropWhile (· = "")).reverse
  match named.getLast? with
  | none => .error (if path = "" then .noSuchFile else .isAFolder)
  | some name =>
      match directory.follow (start path) named.dropLast with
      | .error cause => .error cause
      | .ok folder =>
          if directory.node? folder ≠ some .folder then .error .notAFolder
          else if named ≠ parts || name = "." || name = ".." then .error .isAFolder
          else if directory.node? (folder ++ [name]) = some .folder then .error .isAFolder
          else .ok (folder ++ [name])

/-- Writes a text to a path: either all of it, or nothing if that is not possible. -/
def write (directory : Directory) (path text : String) : Except Error Unit × Directory :=
  match directory.target path with
  | .error cause => (.error cause, directory)
  | .ok place =>
      (.ok (), { nodes := directory.nodes.insert place (.file text.toByteArray.data.toList) })

end Directory

end CommandLine

end MiniPascal
