import MiniPascal.Proofs.CommandLine.Outcome

/-!
# What the command line does to its surroundings

The command line writes all or nothing: either everything that is asked for succeeds, and then the
assembly is in its place and nothing else has changed, or the directory is left as it is. The flags
change neither the ending nor the files nor what the program writes, only what is reported about it.
-/

namespace MiniPascal.CommandLine

/-- A program is compiled as far as this is asked for, and a directory is left. -/
def Translates (disk : Disk) (options : Options) (program : Program)
    (directory after : Directory) : Prop :=
  if options.mode.compiles then
    ∃ assembly, compile program = .ok assembly ∧
      disk.write directory options.target assembly = (.ok (), after)
  else after = directory

/-- A program is run and compiled as far as this is asked for, and a directory is left. -/
def Performs (disk : Disk) (fuel : Nat) (options : Options) (program : Program)
    (directory : Directory) (input : Input) (after : Directory) : Prop :=
  (options.mode.runs → ∃ finished, Interpreter.run fuel program { input } = .ok () finished) ∧
    Translates disk options program directory after

/-- Everything that is asked for can be done, and a directory is left. -/
def Achieves (disk : Disk) (fuel : Nat) (options : Options) (directory : Directory)
    (input : Input) (after : Directory) : Prop :=
  ∃ source program, disk.read directory options.path = .ok source ∧ parse source = .ok program ∧
    Performs disk fuel options program directory input after

/-! ### Successes and failures -/

/-- An outcome is a success if something can be done, and has done it then. If not, it leaves the
directory as it is. -/
structure Outcome.Settles (outcome : Outcome) (before : Directory) (can : Directory → Prop) :
    Prop where
  done : outcome.ending = .success → can outcome.directory
  undone : outcome.ending ≠ .success → outcome.directory = before ∧ ∀ after, ¬ can after

namespace Outcome.Settles

variable {outcome : Outcome} {before : Directory} {can can' : Directory → Prop}

theorem congr (settles : outcome.Settles before can) (same : ∀ after, can after ↔ can' after) :
    outcome.Settles before can' := by
  constructor
  · intro success
    exact (same _).1 (settles.done success)
  · intro stopped
    obtain ⟨kept, never⟩ := settles.undone stopped
    exact ⟨kept, fun after possible => never after ((same after).2 possible)⟩

theorem of_done {after : Directory} {shown : String} (done : can after) :
    Settles ⟨.success, shown, after⟩ before can :=
  ⟨fun _ => done, fun stopped => absurd rfl stopped⟩

theorem of_undone {ending : Ending} {shown : String} (stopped : ending ≠ .success)
    (never : ∀ after, ¬ can after) : Settles ⟨ending, shown, before⟩ before can :=
  ⟨fun success => absurd success stopped, fun _ => ⟨rfl, never⟩⟩

end Outcome.Settles

theorem Ending.ofHalt_ne_success (halt : Halt) : ofHalt halt ≠ .success := by
  cases halt <;> simp [ofHalt]

variable {disk : Disk} {options : Options} {directory after : Directory}

/-- A write that fails leaves the directory as it is, whether it is refused or not. -/
theorem Disk.eq_of_write_error {path text : String} {cause : Error}
    (failed : disk.write directory path text = (.error cause, after)) : after = directory := by
  cases disk.write_whole directory path text with
  | inl whole =>
      rw [whole] at failed
      exact Directory.eq_of_write_error failed
  | inr refused =>
      obtain ⟨_, refused⟩ := refused
      rw [refused] at failed
      cases failed
      rfl

theorem Disk.rewritten_of_write {path text : String}
    (written : disk.write directory path text = (.ok (), after)) :
    directory.Rewritten after path text := by
  cases disk.write_whole directory path text with
  | inl whole =>
      rw [whole] at written
      exact Directory.rewritten_of_write written
  | inr refused =>
      obtain ⟨_, refused⟩ := refused
      rw [refused] at written
      cases written

theorem settles_translated (program : Program) (text : String) :
    (translated disk options program directory text).Settles directory
      (Translates disk options program directory) := by
  unfold translated Translates
  split
  · rw [compiled]
    cases generated : compile program with
    | error _ => exact .of_undone (by simp) (by simp)
    | ok assembly =>
        dsimp only
        cases written : disk.write directory options.target assembly with
        | mk answer after =>
            cases answer with
            | error cause =>
                cases disk.eq_of_write_error written
                exact .of_undone (by simp) (by simp [written])
            | ok _ => exact .of_done ⟨assembly, rfl, written⟩
  · exact .of_done rfl

theorem settles_performed (fuel : Nat) (program : Program) (input : Input) :
    (performed disk fuel options program directory input).Settles directory
      (Performs disk fuel options program directory input) := by
  unfold performed Performs
  split
  · next runs =>
      cases ran : Interpreter.run fuel program { input } with
      | ok _ finished =>
          apply (settles_translated program finished.output.text).congr
          simp
      | error halt stopped => exact .of_undone (Ending.ofHalt_ne_success halt) (by simp [runs])
  · next idle =>
      apply (settles_translated program "").congr
      simp [idle]

/-- The outcome is a success exactly if everything that is asked for can be done. -/
theorem settles_outcome (disk : Disk) (fuel : Nat) (options : Options) (directory : Directory)
    (input : Input) :
    (outcome disk fuel options directory input).Settles directory
      (Achieves disk fuel options directory input) := by
  unfold outcome Achieves
  cases read : disk.read directory options.path with
  | error cause => exact .of_undone (by simp) (by simp)
  | ok source =>
      simp only [parsed]
      cases found : parse source with
      | error cause => exact .of_undone (by simp) (by simp [found])
      | ok program =>
          apply (settles_performed fuel program input).congr
          simp [found]

/-- The command line settles what its outcome settles. -/
theorem Comes.settles {quiet : Prop} {outcome : Outcome} {before after : World} {ending : Ending}
    {can : Directory → Prop} (comes : Comes quiet outcome before ending after)
    (settles : outcome.Settles directory can) :
    (ending = .success → can after.directory) ∧
      (ending ≠ .success → after.directory = directory ∧ ∀ left, ¬ can left) := by
  rw [comes.ending, comes.directory]
  exact ⟨settles.done, settles.undone⟩

theorem Ending.code_eq_zero {ending : Ending} : ending.code = 0 ↔ ending = .success := by
  cases ending <;> decide

section

variable {σ : Type} [Host (StateM σ)] [Surroundings σ]

/-- A run of the command line that does not succeed leaves every file as it is, and so does one that
only runs the program. One that succeeds in compiling has put the whole assembly of the program into
the file that it is asked to write, and has left every other file as it is. It succeeds exactly if
everything that is asked for can be done. The file is the one of the options, or else the default
for the source. -/
theorem run_all_or_nothing (fuel : Nat) {args : List String} {options : Options}
    (accepted : Request.ofArgs? args = some (.process options)) (state : σ) :
    let before := Surroundings.world state
    let ended := (run fuel args : StateM σ Ending).run state
    let after := Surroundings.world ended.2
    (ended.1.code ≠ 0 → after.directory = before.directory) ∧
      (ended.1.code = 0 → options.mode = .run → after.directory = before.directory) ∧
      (ended.1.code = 0 → options.mode ≠ .run → ∃ source program assembly,
        before.directory.source options.path = .ok source ∧ parse source = .ok program ∧
        compile program = .ok assembly ∧
        (options.mode = .both → ∃ finished,
          Interpreter.run fuel program { input := before.input } = .ok () finished) ∧
        before.directory.Rewritten after.directory options.target assembly) ∧
      (ended.1.code = 0 ↔ ∃ left,
        Achieves (Surroundings.disk σ) fuel options before.directory before.input left) ∧
      (∀ path, options.output = some path → options.target = path) ∧
      (options.output = none → Path.Default options.path options.target) := by
  intro before ended after
  obtain ⟨done, undone⟩ := (comes_run fuel accepted state).settles
    (settles_outcome (Surroundings.disk σ) fuel options before.directory before.input)
  simp only [ne_eq, Ending.code_eq_zero]
  refine ⟨fun stopped => (undone stopped).1, ?_, ?_, ?_, ?_, ?_⟩
  · intro success mode
    obtain ⟨_, _, _, _, _, translates⟩ := done success
    rwa [Translates, if_neg (by simp [Mode.compiles, mode])] at translates
  · intro success mode
    obtain ⟨source, program, read, found, ran, translates⟩ := done success
    rw [Translates, if_pos (by simpa [Mode.compiles] using mode)] at translates
    obtain ⟨assembly, generated, written⟩ := translates
    refine ⟨source, program, assembly, Disk.read_text _ read, found, generated, ?_,
      Disk.rewritten_of_write written⟩
    intro both
    exact ran (by rw [both]; rfl)
  · constructor
    · intro success
      exact ⟨_, done success⟩
    · rintro ⟨left, achieved⟩
      apply Decidable.byContradiction
      intro stopped
      exact (undone stopped).2 left achieved
  · intro path given
    rw [Options.target, given, Option.getD_some]
  · intro none
    rw [Path.default_iff, Options.target, none, Option.getD_none]

end

/-- A world with a program that reads a number and writes its square. -/
def squareWorld : World where
  directory :=
    { nodes := (∅ : Std.TreeMap (List String) Node).insert ["p.pas"]
        (.file "VAR n; BEGIN READLN(n); WRITELN(n * n); END;.".toByteArray.data.toList) }
  input := "7\n".toByteArray.data.toList

/-- The square is written and the assembly is stored, but not if its folder is missing. If no path
is given for it, it is stored under the name of the source. -/
theorem run_all_or_nothing_squareWorld :
    let stored := (run 5 ["p.pas", "--mode", "both", "-o", "out.asm"] :
      StateM World Ending).run squareWorld
    let failed := (run 5 ["p.pas", "--mode", "both", "-o", "missing/out.asm"] :
      StateM World Ending).run squareWorld
    let named := (run 5 ["./p.pas", "--mode", "compile"] : StateM World Ending).run squareWorld
    (stored.1.code = 0 ∧ ∃ source program assembly,
      squareWorld.directory.source "p.pas" = .ok source ∧ parse source = .ok program ∧
      compile program = .ok assembly ∧
      (∃ finished,
        Interpreter.run 5 program { input := squareWorld.input } = .ok () finished) ∧
      squareWorld.directory.Rewritten stored.2.directory "out.asm" assembly) ∧
    (failed.1.code = 1 ∧ failed.2.directory = squareWorld.directory) ∧
    named.1.code = 0 ∧ Path.Default "./p.pas" "p.asm" ∧
      ∃ assembly, squareWorld.directory.Rewritten named.2.directory "p.asm" assembly := by
  intro stored failed named
  have accepted : Request.ofArgs? ["p.pas", "--mode", "both", "-o", "out.asm"] =
      some (.process { path := "p.pas", mode := .both, output := some "out.asm" }) := by
    decide +kernel
  have accepted' : Request.ofArgs? ["p.pas", "--mode", "both", "-o", "missing/out.asm"] =
      some (.process { path := "p.pas", mode := .both, output := some "missing/out.asm" }) := by
    decide +kernel
  have accepted'' : Request.ofArgs? ["./p.pas", "--mode", "compile"] =
      some (.process { path := "./p.pas", mode := .compile }) := by
    decide +kernel
  obtain ⟨success, failure, success'⟩ :
      stored.1.code = 0 ∧ failed.1.code = 1 ∧ named.1.code = 0 := by
    decide +kernel
  obtain ⟨_, _, whole, _⟩ := run_all_or_nothing 5 accepted squareWorld
  obtain ⟨source, program, assembly, read, found, generated, ran, rewritten⟩ :=
    whole success (by decide)
  obtain ⟨kept, _⟩ := run_all_or_nothing 5 accepted' squareWorld
  have stopped : failed.1.code ≠ 0 := by
    rw [failure]
    decide
  obtain ⟨_, _, whole', _, _, default⟩ := run_all_or_nothing 5 accepted'' squareWorld
  obtain ⟨_, _, assembly', _, _, _, _, rewritten'⟩ := whole' success' (by decide)
  have target : Options.target { path := "./p.pas", mode := .compile } = "p.asm" := by
    decide +kernel
  rw [target] at default rewritten'
  exact ⟨⟨success, source, program, assembly, read, found, generated, ran rfl, rewritten⟩,
    ⟨failure, kept stopped⟩, success', default rfl, assembly', rewritten'⟩

/-! ### The flags -/

theorem performed_eq_of_finished {fuel fuel' : Nat} {program : Program} {input : Input}
    (finished : (performed disk fuel options program directory input).ending ≠ .unfinished)
    (finished' : (performed disk fuel' options program directory input).ending ≠ .unfinished) :
    performed disk fuel options program directory input =
      performed disk fuel' options program directory input := by
  unfold performed at finished finished' ⊢
  split
  · next runs =>
      rw [if_pos runs] at finished finished'
      have same : Interpreter.run fuel program { input } =
          Interpreter.run fuel' program { input } := by
        apply run_eq_of_finished
        · intro after ran
          rw [ran] at finished
          exact finished rfl
        · intro after ran
          rw [ran] at finished'
          exact finished' rfl
      rw [same]
  · rfl

/-- The outcome is the same with any amount of fuel that is enough. -/
theorem outcome_eq_of_finished {fuel fuel' : Nat} {input : Input}
    (finished : (outcome disk fuel options directory input).ending ≠ .unfinished)
    (finished' : (outcome disk fuel' options directory input).ending ≠ .unfinished) :
    outcome disk fuel options directory input = outcome disk fuel' options directory input := by
  simp only [outcome, parsed] at finished finished' ⊢
  split
  · rfl
  · next read =>
      split
      · rfl
      · next found =>
          simp only [read, found] at finished finished'
          exact performed_eq_of_finished finished finished'

/-- The outcome does not depend on the flags. -/
theorem outcome_plain (disk : Disk) (fuel : Nat) (options : Options) (directory : Directory)
    (input : Input) :
    outcome disk fuel options.plain directory input = outcome disk fuel options directory input :=
  rfl

/-- Two runs of the command line in the same surroundings that end, and that differ in their flags
only, have the same exit code and leave the same files. If one of them is without flags, what it
prints is printed in one piece by the other. -/
theorem run_flags_only_report {σ : Type} [Host (StateM σ)] [Surroundings σ] {fuel fuel' : Nat}
    {args args' : List String} {options options' : Options} {state state' : σ}
    (accepted : Request.ofArgs? args = some (.process options))
    (accepted' : Request.ofArgs? args' = some (.process options'))
    (plain : options.plain = options'.plain)
    (directory : (Surroundings.world state).directory = (Surroundings.world state').directory)
    (input : (Surroundings.world state).input = (Surroundings.world state').input)
    (finished : ((run fuel args : StateM σ Ending).run state).1 ≠ .unfinished)
    (finished' : ((run fuel' args' : StateM σ Ending).run state').1 ≠ .unfinished) :
    let ended := (run fuel args : StateM σ Ending).run state
    let ended' := (run fuel' args' : StateM σ Ending).run state'
    let after := Surroundings.world ended.2
    let after' := Surroundings.world ended'.2
    ended.1.code = ended'.1.code ∧ after.directory = after'.directory ∧
      (options.Quiet → ∃ block front back,
        after.stdout = (Surroundings.world state).stdout ++ block ∧
        after'.stdout = (Surroundings.world state').stdout ++ front ++ block ++ back) := by
  intro ended ended' after after'
  have comes := comes_run fuel accepted state
  have comes' := comes_run fuel' accepted' state'
  rw [comes.ending] at finished
  rw [comes'.ending] at finished'
  rw [← outcome_plain, ← plain, outcome_plain, ← directory, ← input] at comes' finished'
  rw [outcome_eq_of_finished finished' finished] at comes'
  refine ⟨?_, ?_, ?_⟩
  · rw [comes.ending, comes'.ending]
  · rw [comes.directory, comes'.directory]
  · intro quiet
    obtain ⟨front, back, printed, silent⟩ := comes.stdout
    obtain ⟨front', back', printed', _⟩ := comes'.stdout
    obtain ⟨rfl, rfl⟩ := silent quiet
    rw [String.append_empty, String.append_empty] at printed
    exact ⟨_, front', back', printed, printed'⟩

/-- With all flags at once the square is written in one piece, too. -/
theorem run_flags_only_report_squareWorld :
    let ended := (run 5 ["p.pas"] : StateM World Ending).run squareWorld
    let ended' := (run 9 ["-vt", "--show-tokens", "p.pas", "--show-ast"] :
      StateM World Ending).run squareWorld
    ended.1.code = 0 ∧ ended'.1.code = 0 ∧ ended.2.directory = ended'.2.directory ∧
      ended.2.stdout = "49\n" ∧
      ∃ front back, ended'.2.stdout = squareWorld.stdout ++ front ++ "49\n" ++ back := by
  intro ended ended'
  have accepted : Request.ofArgs? ["p.pas"] = some (.process { path := "p.pas" }) := by
    decide +kernel
  have accepted' : Request.ofArgs? ["-vt", "--show-tokens", "p.pas", "--show-ast"] =
      some (.process
        { path := "p.pas"
          showTokens := true
          showTree := true
          verbose := true
          timing := true }) := by
    decide +kernel
  obtain ⟨success, success', written⟩ :
      ended.1 = .success ∧ ended'.1 = .success ∧ ended.2.stdout = "49\n" := by
    decide +kernel
  have finished : ended.1 ≠ .unfinished := by
    rw [success]
    decide
  have finished' : ended'.1 ≠ .unfinished := by
    rw [success']
    decide
  obtain ⟨codes, directories, blocks⟩ :=
    run_flags_only_report accepted accepted' rfl rfl rfl finished finished'
  obtain ⟨block, front, back, printed, printed'⟩ := blocks ⟨rfl, rfl, rfl, rfl⟩
  have shown : block = "49\n" := by
    rw [← written]
    exact (printed.trans String.empty_append).symm
  have code : ended.1.code = 0 := Ending.code_eq_zero.2 success
  exact ⟨code, codes ▸ code, directories, written, front, back, shown ▸ printed'⟩

end MiniPascal.CommandLine
