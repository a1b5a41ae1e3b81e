import MiniPascal.Assembly.Count
import MiniPascal.CommandLine.Host
import MiniPascal.CommandLine.Options
import MiniPascal.Compile.Program
import MiniPascal.Parser.Program
import MiniPascal.Run.Interpreter
import MiniPascal.Tree.Printer

/-!
# Processing a program

Reads a source file, lists its tokens and its tree if asked, runs it or compiles it or both, and
reports on the way. The assembly is written last, when everything else has succeeded.
-/

namespace MiniPascal.CommandLine

/-- What `--timing` reports, with times in thousandths of a second. -/
structure Statistics where
  lexing : Nat := 0
  parsing : Nat := 0
  running : Nat := 0
  generating : Nat := 0
  total : Nat := 0
  tokens : Nat := 0
  procedures : Nat := 0
  instructions : Nat := 0

/-- The text with blanks in front of it up to a width. -/
def padLeft (width : Nat) (text : String) : String :=
  String.ofList (List.replicate (width - text.length) ' ') ++ text

/-- A time in seconds with three decimals. -/
def seconds (time : Nat) : String :=
  Nat.repr (time / 1000) ++ "." ++
    String.ofList [Nat.digitChar (time / 100 % 10), Nat.digitChar (time / 10 % 10),
      Nat.digitChar (time % 10)] ++ "s"

/-- The text of the statistics. -/
def Statistics.render (statistics : Statistics) : String :=
  let column (time : Nat) : String := padLeft 9 (seconds time) ++ "\n"
  "\n Statistics:\n" ++
    "  Lexical Analysis    " ++ column statistics.lexing ++
    "  Parsing             " ++ column statistics.parsing ++
    "  Interpretation      " ++ column statistics.running ++
    "  Code Generation     " ++ column statistics.generating ++
    "  Total               " ++ column statistics.total ++
    s!"  Tokens:             {statistics.tokens}\n" ++
    s!"  Procedures:         {statistics.procedures}\n" ++
    s!"  MIPS instructions:  {statistics.instructions}\n"

/-- A line for each token with the number of its line. -/
def tokenListing (lexemes : List Lexeme) : String :=
  let line (lexeme : Lexeme) : String :=
    "  " ++ padLeft 4 (Nat.repr lexeme.line) ++ "  " ++ lexeme.token.text ++ "\n"
  "\n Tokens:\n" ++ String.join (lexemes.map line)

section

variable {m : Type → Type} [Monad m] [Host m]

/-- A part of the processing, which may stop it. -/
abbrev Phase (m : Type → Type) := ExceptT Halt m

/-- Writes a text if asked. -/
def printIf (asked : Bool) (text : String) : Phase m Unit := do
  if asked then
    ExceptT.lift (Host.print text)

/-- Gives a value or stops with an error. -/
def orStop {α : Type} : Except Error α → Phase m α
  | .ok value => pure value
  | .error cause => throw (.error cause)

/-- Computes a value and measures how long that takes. -/
def timed {α : Type} (work : Unit → α) : Phase m (α × Nat) := do
  let start ← ExceptT.lift Host.clock
  let value ← ExceptT.lift (Host.compute work)
  let stop ← ExceptT.lift Host.clock
  return (value, stop - start)

/-- Lists the tokens of a source. -/
def listTokens (options : Options) (source : String) (statistics : Statistics) :
    Phase m Statistics := do
  let (result, lexing) ← timed fun _ => scan source
  let lexemes ← orStop result
  let tokens := lexemes.length
  printIf options.showTokens (tokenListing lexemes)
  printIf options.verbose
    s!"Lexical analysis completed in {seconds lexing}\n  Generated {tokens} tokens\n"
  return { statistics with lexing, tokens }

/-- Parses a source. -/
def parseSource (options : Options) (source : String) (statistics : Statistics) :
    Phase m (Program × Statistics) := do
  let (result, parsing) ← timed fun _ => parse source
  let program ← orStop result
  let procedures := program.procedures.length
  printIf options.verbose (s!"Parsing completed in {seconds parsing}\n" ++
    s!"  {program.globals.length} global(s), {procedures} procedure(s)\n")
  printIf options.showTree ("\n Abstract Syntax Tree:\n" ++ program.render ++ "\n")
  return (program, { statistics with parsing, procedures })

/-- Runs a program on the standard input. What it writes is shown also when it fails. -/
def runProgram (fuel : Nat) (options : Options) (program : Program) (statistics : Statistics) :
    Phase m Statistics := do
  let input ← ExceptT.lift Host.input
  let (result, running) ← timed fun _ => (Interpreter.run fuel program).run { input }
  match result with
  | .ok _ after => printIf true after.output.text
  | .error halt after =>
      printIf true after.output.text
      throw halt
  printIf options.verbose s!"Interpretation completed in {seconds running}\n"
  return { statistics with running }

/-- Compiles a program and writes its assembly. -/
def compileProgram (options : Options) (program : Program) (statistics : Statistics) :
    Phase m Statistics := do
  let (result, generating) ← timed fun _ => compile program
  let assembly ← orStop result
  let instructions := instructionCount assembly
  printIf options.verbose (s!"Code generation completed in {seconds generating}\n" ++
    s!"  Generated {instructions} MIPS instructions\n")
  let path := options.output.getD (Path.assembly options.path)
  orStop (← ExceptT.lift (Host.save path assembly))
  printIf options.verbose s!"Assembly written to: {path}\n"
  return { statistics with generating, instructions }

/-- Reports on a processing that began at `start`. -/
def finish (options : Options) (start : Nat) (statistics : Statistics) : Phase m Unit := do
  let stop ← ExceptT.lift Host.clock
  printIf options.timing { statistics with total := stop - start }.render

/-- The processing from the compilation on. -/
def compileAndFinish (options : Options) (program : Program) (start : Nat)
    (statistics : Statistics) : Phase m Unit := do
  let statistics ←
    if options.mode.compiles then compileProgram options program statistics else pure statistics
  finish options start statistics

/-- The processing from the run on. -/
def runAndFinish (fuel : Nat) (options : Options) (program : Program) (start : Nat)
    (statistics : Statistics) : Phase m Unit := do
  let statistics ←
    if options.mode.runs then runProgram fuel options program statistics else pure statistics
  compileAndFinish options program start statistics

/-- The processing from the parser on. -/
def parseAndFinish (fuel : Nat) (options : Options) (source : String) (start : Nat)
    (statistics : Statistics) : Phase m Unit := do
  let (program, statistics) ← parseSource options source statistics
  runAndFinish fuel options program start statistics

/-- Processes a program. -/
def process (fuel : Nat) (options : Options) : Phase m Unit := do
  let start ← ExceptT.lift Host.clock
  printIf options.verbose s!"Processing: {options.path}\n"
  let source ← orStop (← ExceptT.lift (Host.source options.path))
  printIf options.verbose s!"Read {source.utf8ByteSize} bytes from input file\n"
  let statistics : Statistics ←
    if options.diagnoses then listTokens options source {} else pure {}
  parseAndFinish fuel options source start statistics

/-- How the command line ends. -/
inductive Ending where
  | success
  | failure
  /-- The arguments break a rule. -/
  | usage
  /-- The program needs more fuel. -/
  | unfinished
  deriving DecidableEq, Repr

/-- The exit code of an ending. -/
def Ending.code : Ending → UInt32
  | .success => 0
  | .failure => 1
  | .usage => 2
  | .unfinished => 3

/-- The line that shows the version. -/
def versionLine : String :=
  "mipas 0.1.0\n"

/-- The line that shows how the arguments go. -/
def usageLine : String :=
  "Usage: mipas [--mode run|compile|both] [-o OUTPUT] [--show-tokens] [--show-ast] [-v] [-t] PATH\n"

/-- Tells how the processing of a program ended. -/
def conclude (result : Except Halt Unit) : m Ending := do
  match result with
  | .ok _ => return .success
  | .error (.error cause) =>
      Host.complain s!"Error: {cause.message}\n"
      return .failure
  | .error .outOfFuel => return .unfinished

/-- Processes a program and tells how that ended. -/
def processOrFail (fuel : Nat) (options : Options) : m Ending := do
  if Path.extension? options.path ≠ some "pas" then
    Host.complain "Warning: Input file does not have .pas extension\n"
  conclude (← (process fuel options).run)

/-- The command line. -/
def run (fuel : Nat) (args : List String) : m Ending := do
  match Request.ofArgs? args with
  | none =>
      Host.complain usageLine
      return .usage
  | some .version =>
      Host.print versionLine
      return .success
  | some (.process options) => processOrFail fuel options

end

end MiniPascal.CommandLine
