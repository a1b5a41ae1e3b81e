/-!
# Command line arguments

One path and options in any order. A long option takes its value behind `=` or as the next word, a
short one takes it directly, behind `=` or as the next word, and short options without a value can
be joined. Each of them is given at most once. Behind `--` every word is a path.

There is no option that asks for help: `-h` and `--help` are left out here, and are refused like any
other name that is no option.
-/

namespace MiniPascal.CommandLine

/-- What to do with a program. -/
inductive Mode where
  | run
  | compile
  | both
  deriving DecidableEq, Repr

namespace Mode

/-- The mode of a name. -/
def ofName? : String → Option Mode
  | "run" => some .run
  | "compile" => some .compile
  | "both" => some .both
  | _ => none

/-- Whether the program is run. -/
def runs (mode : Mode) : Bool :=
  mode ≠ .compile

/-- Whether the program is compiled. -/
def compiles (mode : Mode) : Bool :=
  mode ≠ .run

end Mode

/-- How one program is processed. -/
structure Options where
  path : String
  mode : Mode := .run
  output : Option String := none
  showTokens : Bool := false
  showTree : Bool := false
  verbose : Bool := false
  timing : Bool := false
  deriving DecidableEq, Repr

/-- Whether the tokens of the program are listed or counted. -/
def Options.diagnoses (options : Options) : Bool :=
  options.showTokens || options.verbose || options.timing

/-- What the arguments ask for. -/
inductive Request where
  | version
  | process (options : Options)
  deriving DecidableEq, Repr

/-- Why the arguments are not read to their end. -/
inductive Stop where
  /-- They break a rule. -/
  | usage
  /-- They ask for the version. What follows is not looked at. -/
  | version
  deriving DecidableEq, Repr

/-- An option without a value. -/
inductive Flag where
  | showTokens
  | showTree
  | verbose
  | timing
  deriving DecidableEq, Repr

/-- An option with a value. -/
inductive Setting where
  | mode
  | output
  deriving DecidableEq, Repr

/-- What an option name stands for. -/
inductive Switch where
  | flag (flag : Flag)
  | setting (setting : Setting)
  | version
  deriving DecidableEq, Repr

namespace Switch

/-- The option of a long name. -/
def ofName? : String → Option Switch
  | "show-tokens" => some (.flag .showTokens)
  | "show-ast" => some (.flag .showTree)
  | "verbose" => some (.flag .verbose)
  | "timing" => some (.flag .timing)
  | "mode" => some (.setting .mode)
  | "output" => some (.setting .output)
  | "version" => some .version
  | _ => none

/-- The option of a letter. -/
def ofLetter? : Char → Option Switch
  | 'v' => some (.flag .verbose)
  | 't' => some (.flag .timing)
  | 'o' => some (.setting .output)
  | 'V' => some .version
  | _ => none

end Switch

/-- What has been given so far. -/
structure Given where
  path : Option String := none
  mode : Option Mode := none
  output : Option String := none
  flags : List Flag := []
  deriving DecidableEq, Repr

namespace Given

/-- Adds a path, which must not be empty. -/
def addPath (given : Given) (path : String) : Except Stop Given :=
  if given.path.isSome || path = "" then .error .usage else .ok { given with path := some path }

/-- Adds a flag. -/
def addFlag (given : Given) (flag : Flag) : Except Stop Given :=
  if flag ∈ given.flags then .error .usage else .ok { given with flags := flag :: given.flags }

/-- Adds an option with its value. -/
def addSetting (given : Given) (value : String) : Setting → Except Stop Given
  | .mode =>
      match given.mode, Mode.ofName? value with
      | none, some mode => .ok { given with mode := some mode }
      | _, _ => .error .usage
  | .output =>
      if given.output.isSome || value = "" then .error .usage
      else .ok { given with output := some value }

/-- What one word adds, and the option whose value is the next word. -/
abbrev Added := Except Stop (Given × Option Setting)

/-- Reads a long option without its dashes. -/
def addLong (given : Given) (word : List Char) : Added :=
  let name := String.ofList (word.takeWhile (· ≠ '='))
  match Switch.ofName? name, word.dropWhile (· ≠ '=') with
  | some (.flag flag), [] => (given.addFlag flag).map (·, none)
  | some (.setting setting), [] => .ok (given, some setting)
  | some (.setting setting), _ :: value =>
      (given.addSetting (String.ofList value) setting).map (·, none)
  | some .version, [] => .error .version
  | _, _ => .error .usage

/-- Reads joined short options without their dash. -/
def addShort (given : Given) : List Char → Added
  | [] => .ok (given, none)
  | letter :: rest =>
      match Switch.ofLetter? letter, rest with
      | some (.flag flag), rest => (given.addFlag flag).bind (·.addShort rest)
      | some (.setting setting), [] => .ok (given, some setting)
      | some (.setting setting), '=' :: value =>
          (given.addSetting (String.ofList value) setting).map (·, none)
      | some (.setting setting), value =>
          (given.addSetting (String.ofList value) setting).map (·, none)
      | some .version, _ => .error .version
      | none, _ => .error .usage

/-- Reads one word. A single dash is a path. -/
def addWord (given : Given) (word : String) : Added :=
  match word.toList with
  | '-' :: '-' :: name => given.addLong name
  | '-' :: letter :: rest => given.addShort (letter :: rest)
  | _ => (given.addPath word).map (·, none)

/-- Whether a word reads as an option, so that it is no value. -/
def isOption (word : String) : Bool :=
  word.toList.head? = some '-' && word ≠ "-"

/-- Reads words. -/
def addWords (given : Given) : List String → Except Stop Given
  | [] => .ok given
  | word :: rest =>
      if word = "--" then rest.foldlM addPath given
      else
        match given.addWord word, rest with
        | .error stop, _ => .error stop
        | .ok (given, none), rest => given.addWords rest
        | .ok (_, some _), [] => .error .usage
        | .ok (given, some setting), value :: rest =>
            if isOption value then .error .usage
            else
              match given.addSetting value setting with
              | .error stop => .error stop
              | .ok given => given.addWords rest

/-- The options that were given, if there is a path. -/
def options? (given : Given) : Option Options :=
  given.path.map fun path =>
    { path
      mode := given.mode.getD .run
      output := given.output
      showTokens := .showTokens ∈ given.flags
      showTree := .showTree ∈ given.flags
      verbose := .verbose ∈ given.flags
      timing := .timing ∈ given.flags }

end Given

/-- What the arguments ask for, unless they break a rule. -/
def Request.ofArgs? (args : List String) : Option Request :=
  match ({} : Given).addWords args with
  | .error .version => some .version
  | .error .usage => none
  | .ok given => given.options?.map .process

end MiniPascal.CommandLine
