import MiniPascal.Proofs.CommandLine.Directory
import MiniPascal.Proofs.CommandLine.Surroundings
import MiniPascal.Proofs.Parser.Correctness
import MiniPascal.Proofs.Run.Fuel

/-!
# What the processing of a program comes to

`outcome` says how the processing of a program ends, what the program writes and which directory is
left, as a function of the files and the input that does not look at the flags. Whatever the flags
are, the processing comes to this outcome; what they ask for is printed in front of and behind what
the program writes.
-/

namespace MiniPascal.CommandLine

/-- The options without the flags that ask for reports. -/
def Options.plain (options : Options) : Options where
  path := options.path
  mode := options.mode
  output := options.output

/-- No report is asked for. -/
structure Options.Quiet (options : Options) : Prop where
  showTokens : options.showTokens = false
  showTree : options.showTree = false
  verbose : options.verbose = false
  timing : options.timing = false

/-- Where the assembly goes. -/
def Options.target (options : Options) : String :=
  options.output.getD (Path.assembly options.path)

/-- How the command line ends when the processing stops early. -/
def Ending.ofHalt : Halt → Ending
  | .error _ => .failure
  | .outOfFuel => .unfinished

/-- How the command line ends with a result of the processing. -/
def Ending.ofResult {α : Type} : Except Halt α → Ending
  | .ok _ => .success
  | .error halt => .ofHalt halt

/-- What the processing of a program comes to, reports apart. -/
structure Outcome where
  ending : Ending
  /-- What the program itself has written. -/
  shown : String
  directory : Directory

/-- What comes of a program that has written a text and is compiled. -/
def compiled (disk : Disk) (options : Options) (program : Program) (directory : Directory)
    (text : String) : Outcome :=
  match compile program with
  | .error _ => ⟨.failure, text, directory⟩
  | .ok assembly =>
      match disk.write directory options.target assembly with
      | (.error _, after) => ⟨.failure, text, after⟩
      | (.ok _, after) => ⟨.success, text, after⟩

/-- What comes of a program that has written a text and is compiled if this is asked for. -/
def translated (disk : Disk) (options : Options) (program : Program) (directory : Directory)
    (text : String) : Outcome :=
  if options.mode.compiles then compiled disk options program directory text
  else ⟨.success, text, directory⟩

theorem translated_eq (disk : Disk) (options : Options) (program : Program)
    (directory : Directory) (text : String) :
    translated disk options program directory text =
      { translated disk options program directory "" with shown := text } := by
  simp only [translated, compiled]
  split
  · split
    · rfl
    · split <;> rfl
  · rfl

/-- What comes of a program that has been parsed. -/
def performed (disk : Disk) (fuel : Nat) (options : Options) (program : Program)
    (directory : Directory) (input : Input) : Outcome :=
  if options.mode.runs then
    match Interpreter.run fuel program { input } with
    | .error halt after => ⟨.ofHalt halt, after.output.text, directory⟩
    | .ok _ after => translated disk options program directory after.output.text
  else translated disk options program directory ""

/-- What comes of a source that has been read. -/
def parsed (disk : Disk) (fuel : Nat) (options : Options) (source : String)
    (directory : Directory) (input : Input) : Outcome :=
  match parse source with
  | .error _ => ⟨.failure, "", directory⟩
  | .ok program => performed disk fuel options program directory input

/-- What comes of a source file. -/
def outcome (disk : Disk) (fuel : Nat) (options : Options) (directory : Directory)
    (input : Input) : Outcome :=
  match disk.read directory options.path with
  | .error _ => ⟨.failure, "", directory⟩
  | .ok source => parsed disk fuel options source directory input

/-! ### What is printed -/

/-- A world that an outcome leaves: what the program has written stands in one piece on the standard
output, between reports that are empty if all is quiet. -/
structure Comes (quiet : Prop) (outcome : Outcome) (before : World) (ending : Ending)
    (after : World) : Prop where
  ending : ending = outcome.ending
  directory : after.directory = outcome.directory
  stdout : ∃ front back, after.stdout = before.stdout ++ front ++ outcome.shown ++ back ∧
    (quiet → front = "" ∧ back = "")

variable {quiet : Prop} {result : Outcome} {before middle after : World} {ending : Ending}

/-- Reports at the start stand in front of what the program writes. -/
theorem Comes.after_reports (reports : Reports quiet before middle)
    (comes : Comes quiet result middle ending after) : Comes quiet result before ending after := by
  obtain ⟨report, complaint, rfl, silent⟩ := reports
  obtain ⟨front, back, printed, silent'⟩ := comes.stdout
  refine ⟨comes.ending, comes.directory, report ++ front, back, ?_, ?_⟩
  · rw [printed, ← String.append_assoc]
  · intro isQuiet
    rw [silent isQuiet, (silent' isQuiet).1, (silent' isQuiet).2, String.append_empty]
    exact ⟨rfl, rfl⟩

/-- Reports at the end stand behind what the program writes. -/
theorem Comes.before_reports (comes : Comes quiet result before ending middle)
    (reports : Reports quiet middle after) : Comes quiet result before ending after := by
  obtain ⟨report, complaint, rfl, silent⟩ := reports
  obtain ⟨front, back, printed, silent'⟩ := comes.stdout
  refine ⟨comes.ending, comes.directory, front, back ++ report, ?_, ?_⟩
  · rw [printed, String.append_assoc]
  · intro isQuiet
    rw [silent isQuiet, (silent' isQuiet).1, (silent' isQuiet).2, String.append_empty]
    exact ⟨rfl, rfl⟩

/-- Nothing has been done but reporting, and perhaps writing a file. -/
theorem Comes.of_reports {directory : Directory}
    (reports : Reports quiet { before with directory } after) :
    Comes quiet ⟨ending, "", directory⟩ before ending after := by
  obtain ⟨report, complaint, rfl, silent⟩ := reports
  refine ⟨rfl, rfl, report, "", by simp, fun isQuiet => ⟨silent isQuiet, rfl⟩⟩

/-- The world when a program has taken the input and has written a text. -/
def World.consumed (world : World) (text : String) : World :=
  { world with stdout := world.stdout ++ text, input := [] }

/-- What the program writes stands in front of the reports on what is done with it afterwards. -/
theorem Comes.behind {due : Ending} {directory : Directory} {text : String}
    (comes : Comes quiet ⟨due, "", directory⟩ (before.consumed text) ending after) :
    Comes quiet ⟨due, text, directory⟩ before ending after := by
  obtain ⟨front, back, printed, silent⟩ := comes.stdout
  refine ⟨comes.ending, comes.directory, "", front ++ back, ?_, ?_⟩
  · rw [printed]
    simp [World.consumed, String.append_assoc]
  · intro isQuiet
    rw [(silent isQuiet).1, (silent isQuiet).2, String.append_empty]
    exact ⟨rfl, rfl⟩

/-! ### The parts of the processing -/

section

variable {σ : Type} [Host (StateM σ)] [Surroundings σ] {options : Options}

theorem ensures_listTokens (source : String) (statistics : Statistics) :
    Ensures before (listTokens options source statistics : Phase (StateM σ) Statistics).run
      fun result after => Reports options.Quiet before after ∧
        ((∃ statistics, result = .ok statistics) ∨
          ∃ cause, scan source = .error cause ∧ result = .error (.error cause)) := by
  rw [listTokens]
  apply Ensures.timed
  intro time
  apply Ensures.orStop
  · intro cause failed
    exact ⟨Reports.refl _ _, .inr ⟨cause, failed, rfl⟩⟩
  · intro lexemes _
    apply Ensures.printIf Options.Quiet.showTokens
    intro middle listed
    apply Ensures.printIf Options.Quiet.verbose
    intro after counted
    exact Ensures.pure ⟨listed.trans counted, .inl ⟨_, rfl⟩⟩

theorem ensures_parseSource (source : String) (statistics : Statistics) :
    Ensures before
      (parseSource options source statistics : Phase (StateM σ) (Program × Statistics)).run
      fun result after => Reports options.Quiet before after ∧
        ((∃ program statistics, parse source = .ok program ∧ result = .ok (program, statistics)) ∨
          ∃ cause, parse source = .error cause ∧ result = .error (.error cause)) := by
  rw [parseSource]
  apply Ensures.timed
  intro time
  apply Ensures.orStop
  · intro cause failed
    exact ⟨Reports.refl _ _, .inr ⟨cause, failed, rfl⟩⟩
  · intro program parsed
    apply Ensures.printIf Options.Quiet.verbose
    intro middle counted
    apply Ensures.printIf Options.Quiet.showTree
    intro after drawn
    exact Ensures.pure ⟨counted.trans drawn, .inl ⟨program, _, parsed, rfl⟩⟩

theorem ensures_runProgram (fuel : Nat) (program : Program) (statistics : Statistics) :
    Ensures before
      (runProgram fuel options program statistics : Phase (StateM σ) Statistics).run
      fun result after =>
        (∃ finished statistics,
          Interpreter.run fuel program { input := before.input } = .ok () finished ∧
          result = .ok statistics ∧
          Reports options.Quiet (before.consumed finished.output.text) after) ∨
        ∃ halt stopped,
          Interpreter.run fuel program { input := before.input } = .error halt stopped ∧
          result = .error halt ∧ after = before.consumed stopped.output.text := by
  rw [runProgram]
  apply Ensures.lift Surroundings.input
  apply Ensures.timed
  intro time
  cases ran : Interpreter.run fuel program { input := before.input } with
  | ok _ finished =>
      simp only [EStateM.run, ran]
      apply Ensures.show
      apply Ensures.printIf Options.Quiet.verbose
      intro after reported
      exact Ensures.pure (.inl ⟨finished, _, rfl, rfl, reported⟩)
  | error halt stopped =>
      simp only [EStateM.run, ran]
      apply Ensures.show
      exact Ensures.pure (.inr ⟨halt, stopped, rfl, rfl, rfl⟩)

theorem ensures_compileProgram (program : Program) (statistics : Statistics) :
    Ensures before (compileProgram options program statistics : Phase (StateM σ) Statistics).run
      fun result after => Comes options.Quiet
        (compiled (Surroundings.disk σ) options program before.directory "") before
        (.ofResult result) after := by
  rw [compileProgram]
  apply Ensures.timed
  intro time
  apply Ensures.orStop
  · intro cause failed
    simp only [compiled, failed]
    exact Comes.of_reports (Reports.refl _ _)
  · intro text generated
    apply Ensures.printIf Options.Quiet.verbose
    intro middle counted
    apply Ensures.lift (Surroundings.save options.target text)
    rw [(counted.withDirectory before.directory).1]
    cases written : (Surroundings.disk σ).write before.directory options.target text with
    | mk answer directory =>
        have saved := (counted.withDirectory directory).2
        simp only [compiled, generated, written]
        cases answer with
        | error cause =>
            apply Ensures.orStop
            · intro _ _
              exact Comes.of_reports saved
            · intro _ impossible
              cases impossible
        | ok _ =>
            apply Ensures.orStop
            · intro _ impossible
              cases impossible
            · intro _ _
              apply Ensures.printIf Options.Quiet.verbose
              intro after told
              exact Ensures.pure (Comes.of_reports (saved.trans told))

/-! ### The whole processing -/

/-- Reports in front of a part of the processing do not change what comes of it. -/
theorem ensures_of_reports {α : Type} {computation : StateM σ α} {endingOf : α → Ending}
    (comesTo : Directory → Input → Outcome)
    (ensures : ∀ world, Ensures world computation fun value after =>
      Comes quiet (comesTo world.directory world.input) world (endingOf value) after)
    (reports : Reports quiet before middle) :
    Ensures middle computation fun value after =>
      Comes quiet (comesTo before.directory before.input) before (endingOf value) after := by
  obtain ⟨report, complaint, rfl, silent⟩ := reports
  apply (ensures _).mono
  intro value after comes
  exact Comes.after_reports ⟨report, complaint, rfl, silent⟩ comes

theorem ensures_finish (start : Nat) (statistics : Statistics) :
    Ensures before (finish options start statistics : Phase (StateM σ) Unit).run
      fun result after => result = .ok () ∧ Reports options.Quiet before after := by
  rw [finish]
  apply Ensures.clock
  intro stop
  exact ensures_printIf Options.Quiet.timing

theorem ensures_compileAndFinish (program : Program) (start : Nat) (statistics : Statistics) :
    Ensures before
      (compileAndFinish options program start statistics : Phase (StateM σ) Unit).run
      fun result after => Comes options.Quiet
        (translated (Surroundings.disk σ) options program before.directory "") before
        (.ofResult result) after := by
  rw [compileAndFinish, translated]
  split
  · apply Ensures.phase (ensures_compileProgram program statistics)
    · intro halt after stopped
      exact stopped
    · intro statistics middle comes
      apply (ensures_finish start statistics).mono
      rintro _ after ⟨rfl, reports⟩
      exact comes.before_reports reports
  · rw [pure_bind]
    apply (ensures_finish start statistics).mono
    rintro _ after ⟨rfl, reports⟩
    exact Comes.of_reports reports

theorem ensures_runAndFinish (fuel : Nat) (program : Program) (start : Nat)
    (statistics : Statistics) :
    Ensures before
      (runAndFinish fuel options program start statistics : Phase (StateM σ) Unit).run
      fun result after => Comes options.Quiet
        (performed (Surroundings.disk σ) fuel options program before.directory before.input) before
        (.ofResult result) after := by
  rw [runAndFinish, performed]
  split
  · apply Ensures.phase (ensures_runProgram fuel program statistics)
    · rintro halt after (⟨_, _, _, impossible, _⟩ | ⟨_, stopped, ran, same, rfl⟩)
      · cases impossible
      · cases same
        rw [ran]
        exact Comes.behind (Comes.of_reports (Reports.refl _ _))
    · rintro statistics middle (⟨finished, _, ran, _, reports⟩ | ⟨_, _, _, impossible, _⟩)
      · simp only [ran]
        rw [translated_eq]
        apply (ensures_of_reports
          (fun directory _ => translated (Surroundings.disk σ) options program directory "")
          (fun _ => ensures_compileAndFinish program start statistics) reports).mono
        intro result after comes
        -- Both the report on the run and those on the translation stand behind the text.
        rw [translated_eq] at comes
        exact comes.behind
      · cases impossible
  · rw [pure_bind]
    exact ensures_compileAndFinish program start statistics

theorem ensures_parseAndFinish (fuel : Nat) (source : String) (start : Nat)
    (statistics : Statistics) :
    Ensures before
      (parseAndFinish fuel options source start statistics : Phase (StateM σ) Unit).run
      fun result after => Comes options.Quiet
        (parsed (Surroundings.disk σ) fuel options source before.directory before.input) before
        (.ofResult result) after := by
  rw [parseAndFinish]
  apply Ensures.phase (ensures_parseSource source statistics)
  · rintro halt after ⟨reports, ⟨_, _, _, impossible⟩ | ⟨cause, failed, same⟩⟩
    · cases impossible
    · cases same
      simp only [parsed, failed]
      exact Comes.of_reports reports
  · rintro ⟨program, statistics⟩ middle ⟨reports, ⟨_, _, found, same⟩ | ⟨_, _, impossible⟩⟩
    · cases same
      simp only [parsed, found]
      exact ensures_of_reports (performed (Surroundings.disk σ) fuel options program)
        (fun _ => ensures_runAndFinish fuel program start statistics) reports
    · cases impossible

/-- A source that cannot be scanned cannot be parsed. -/
theorem parsed_of_scan_error {source : String} {cause : Error} (failed : scan source = .error cause)
    (disk : Disk) (fuel : Nat) (options : Options) (directory : Directory) (input : Input) :
    parsed disk fuel options source directory input = ⟨.failure, "", directory⟩ := by
  rw [parsed]
  cases found : parse source with
  | error _ => rfl
  | ok program =>
      obtain ⟨lexemes, scanned, _⟩ := parse_eq_ok_iff.1 found
      rw [failed] at scanned
      cases scanned

/-- The processing comes to its outcome. -/
theorem ensures_process (fuel : Nat) :
    Ensures before (process fuel options : Phase (StateM σ) Unit).run fun result after =>
      Comes options.Quiet
        (outcome (Surroundings.disk σ) fuel options before.directory before.input) before
        (.ofResult result) after := by
  rw [process]
  apply Ensures.clock
  intro start
  apply Ensures.printIf Options.Quiet.verbose
  intro first announced
  apply Ensures.lift (Surroundings.source options.path)
  rw [(announced.withDirectory before.directory).1]
  dsimp only
  apply Ensures.orStop
  · intro cause refused
    simp only [outcome, refused]
    exact Comes.of_reports announced
  · intro source read
    simp only [outcome, read]
    apply Ensures.printIf Options.Quiet.verbose
    intro second counted
    have reports := announced.trans counted
    split
    · apply Ensures.phase (ensures_listTokens source {})
      · rintro halt after ⟨listed, ⟨_, impossible⟩ | ⟨cause, failed, same⟩⟩
        · cases impossible
        · cases same
          -- Without the flags that list the tokens the same source fails when it is parsed.
          rw [parsed_of_scan_error failed]
          exact Comes.of_reports (reports.trans listed)
      · rintro statistics after ⟨listed, _⟩
        exact ensures_of_reports (parsed (Surroundings.disk σ) fuel options source)
          (fun _ => ensures_parseAndFinish fuel source start statistics) (reports.trans listed)
    · rw [pure_bind]
      exact ensures_of_reports (parsed (Surroundings.disk σ) fuel options source)
        (fun _ => ensures_parseAndFinish fuel source start {}) reports

/-! ### The command line -/

theorem ensures_conclude (quiet : Prop) (result : Except Halt Unit) :
    Ensures before (conclude result : StateM σ Ending) fun ending after =>
      ending = .ofResult result ∧ Reports quiet before after := by
  cases result with
  | ok _ => exact Ensures.pure ⟨rfl, Reports.refl _ _⟩
  | error halt =>
      cases halt with
      | error cause =>
          apply Ensures.bind (ensures_complain quiet _)
          intro _ after complained
          exact Ensures.pure ⟨rfl, complained⟩
      | outOfFuel => exact Ensures.pure ⟨rfl, Reports.refl _ _⟩

theorem ensures_processOrFail (fuel : Nat) :
    Ensures before (processOrFail fuel options : StateM σ Ending) fun ending after =>
      Comes options.Quiet
        (outcome (Surroundings.disk σ) fuel options before.directory before.input) before
        ending after := by
  -- The warning about the name of the file may come first, so the rest starts in any world.
  have concluded (world : World) :
      Ensures world ((process fuel options).run >>= conclude : StateM σ Ending) fun ending after =>
        Comes options.Quiet
          (outcome (Surroundings.disk σ) fuel options world.directory world.input) world
          ending after := by
    apply Ensures.bind (ensures_process fuel)
    intro result middle comes
    apply (ensures_conclude options.Quiet result).mono
    rintro _ after ⟨rfl, reports⟩
    exact comes.before_reports reports
  rw [processOrFail]
  split
  · apply Ensures.bind (ensures_complain options.Quiet _)
    intro _ middle warned
    exact ensures_of_reports (outcome (Surroundings.disk σ) fuel options) concluded warned
  · exact concluded before

/-- The command line comes to the outcome of the program it is asked to process. -/
theorem comes_run (fuel : Nat) {args : List String}
    (accepted : Request.ofArgs? args = some (.process options)) (state : σ) :
    Comes options.Quiet
      (outcome (Surroundings.disk σ) fuel options (Surroundings.world state).directory
        (Surroundings.world state).input)
      (Surroundings.world state) ((run fuel args : StateM σ Ending).run state).1
      (Surroundings.world ((run fuel args : StateM σ Ending).run state).2) := by
  rw [run, accepted]
  exact (ensures_processOrFail fuel).ends state rfl

end

end MiniPascal.CommandLine
