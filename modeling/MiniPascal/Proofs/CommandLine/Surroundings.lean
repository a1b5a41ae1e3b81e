import MiniPascal.CommandLine.Process

/-!
# What the command line does in its surroundings

The surroundings of the command line have a state of any kind, which holds a world. They do to this
world what they are asked for, but their clock may show any time and their disk may refuse to read
or write. `Ensures` says how a computation ends in such surroundings, and has a rule for each
request and for each way of combining computations.
-/

namespace MiniPascal.CommandLine

/-- How the files of a directory are read and written. Both may be refused, but what is read is the
text of the file, and a write is done as a whole or leaves the directory as it is. -/
structure Disk where
  read : Directory → String → Except Error String
  write : Directory → String → String → Except Error Unit × Directory
  read_text : ∀ {directory path text}, read directory path = .ok text →
    directory.source path = .ok text
  write_whole : ∀ directory path text, write directory path text = directory.write path text ∨
    ∃ cause, write directory path text = (.error cause, directory)

/-- The disk that refuses nothing. -/
def Disk.willing : Disk where
  read := Directory.source
  write := Directory.write
  read_text found := found
  write_whole _ _ _ := .inl rfl

/-- A request with what it answers and what it does to the world that a state holds. -/
def Answers {σ α : Type} (world : σ → World) (request : StateM σ α)
    (effect : World → α × World) : Prop :=
  ∀ state, ((request.run state).1, world (request.run state).2) = effect (world state)

/-- Surroundings with a state that holds a world. -/
class Surroundings (σ : Type) [Host (StateM σ)] where
  world : σ → World
  disk : Disk
  print : ∀ text, Answers world (Host.print text) fun world =>
    ((), { world with stdout := world.stdout ++ text })
  complain : ∀ text, Answers world (Host.complain text) fun world =>
    ((), { world with stderr := world.stderr ++ text })
  source : ∀ path, Answers world (Host.source path) fun world =>
    (disk.read world.directory path, world)
  input : Answers world Host.input fun world => (world.input, { world with input := [] })
  save : ∀ path text, Answers world (Host.save path text) fun world =>
    ((disk.write world.directory path text).1,
      { world with directory := (disk.write world.directory path text).2 })
  clock : ∀ state, world ((Host.clock : StateM σ Nat).run state).2 = world state
  compute : ∀ {α : Type} (work : Unit → α), Answers world (Host.compute work) fun world =>
    (work (), world)

instance : Surroundings World where
  world := id
  disk := .willing
  print _ _ := rfl
  complain _ _ := rfl
  source _ _ := rfl
  input _ := rfl
  save _ _ _ := rfl
  clock _ := rfl
  compute _ _ := rfl

section

variable {σ : Type} [Host (StateM σ)] [Surroundings σ] {α β : Type} {before : World}

/-- From a state that holds a world, a computation ends with a value and in a world of which
something holds. -/
structure Ensures (before : World) (computation : StateM σ α) (holds : α → World → Prop) :
    Prop where
  ends : ∀ state : σ, Surroundings.world state = before →
    holds (computation.run state).1 (Surroundings.world (computation.run state).2)

namespace Ensures

theorem pure {holds : α → World → Prop} {value : α} (now : holds value before) :
    Ensures before (Pure.pure value : StateM σ α) holds := by
  constructor
  intro state held
  rw [← held] at now
  exact now

theorem mono {computation : StateM σ α} {holds holds' : α → World → Prop}
    (ensures : Ensures before computation holds)
    (weaker : ∀ value after, holds value after → holds' value after) :
    Ensures before computation holds' :=
  ⟨fun state held => weaker _ _ (ensures.ends state held)⟩

theorem bind {first : StateM σ α} {second : α → StateM σ β} {middle : α → World → Prop}
    {holds : β → World → Prop} (one : Ensures before first middle)
    (two : ∀ value after, middle value after → Ensures after (second value) holds) :
    Ensures before (first >>= second) holds := by
  constructor
  intro state held
  exact (two _ _ (one.ends state held)).ends _ rfl

theorem request {request : StateM σ α} {effect : World → α × World} {holds : α → World → Prop}
    (answers : Answers Surroundings.world request effect)
    (now : holds (effect before).1 (effect before).2) : Ensures before request holds := by
  constructor
  intro state held
  rw [← held, ← answers state] at now
  exact now

/-! ### Parts of the processing -/

variable {holds : Except Halt β → World → Prop}

/-- A part of the processing and what follows unless it stops. -/
theorem phase {first : Phase (StateM σ) α} {second : α → Phase (StateM σ) β}
    {middle : Except Halt α → World → Prop} (one : Ensures before first.run middle)
    (stop : ∀ halt after, middle (.error halt) after → holds (.error halt) after)
    (next : ∀ value after, middle (.ok value) after → Ensures after (second value).run holds) :
    Ensures before (first >>= second).run holds := by
  rw [ExceptT.run_bind]
  apply bind one
  intro result after reached
  cases result with
  | ok value => exact next value after reached
  | error halt => exact pure (stop halt after reached)

/-- A request and what follows it. -/
theorem lift {request : StateM σ α} {effect : World → α × World}
    {next : α → Phase (StateM σ) β} (answers : Answers Surroundings.world request effect)
    (rest : Ensures (effect before).2 (next (effect before).1).run holds) :
    Ensures before (ExceptT.lift request >>= next).run holds := by
  have asked : Ensures before request fun value after => (value, after) = effect before :=
    Ensures.request answers rfl
  rw [ExceptT.run_bind_lift]
  apply bind asked
  intro value after same
  rw [← same] at rest
  exact rest

/-- A look at the clock, which may show any time. -/
theorem clock {next : Nat → Phase (StateM σ) β}
    (rest : ∀ time, Ensures before (next time).run holds) :
    Ensures before (ExceptT.lift Host.clock >>= next).run holds := by
  rw [ExceptT.run_bind_lift]
  constructor
  intro state held
  apply (rest _).ends
  rw [← held]
  exact Surroundings.clock state

/-- A computation that may take any time. -/
theorem timed {work : Unit → α} {next : α × Nat → Phase (StateM σ) β}
    (rest : ∀ time, Ensures before (next (work (), time)).run holds) :
    Ensures before (CommandLine.timed work >>= next).run holds := by
  simp only [CommandLine.timed, bind_assoc, pure_bind]
  apply clock
  intro start
  apply lift (Surroundings.compute work)
  apply clock
  intro stop
  exact rest (stop - start)

/-- A value that is there or not. -/
theorem orStop {answer : Except Error α} {next : α → Phase (StateM σ) β}
    (stop : ∀ cause, answer = .error cause → holds (.error (.error cause)) before)
    (rest : ∀ value, answer = .ok value → Ensures before (next value).run holds) :
    Ensures before (CommandLine.orStop answer >>= next).run holds := by
  cases answer with
  | ok value => exact rest value rfl
  | error cause => exact pure (stop cause rfl)

end Ensures

/-- Nothing happens to a world but that a report is printed on the standard output and a complaint
on the standard error. The report is empty if all is quiet. -/
def Reports (quiet : Prop) (before after : World) : Prop :=
  ∃ report complaint, after = { before with
    stdout := before.stdout ++ report
    stderr := before.stderr ++ complaint } ∧ (quiet → report = "")

theorem Reports.refl (quiet : Prop) (world : World) : Reports quiet world world :=
  ⟨"", "", by simp only [String.append_empty], fun _ => rfl⟩

theorem Reports.trans {quiet : Prop} {first second third : World}
    (one : Reports quiet first second) (two : Reports quiet second third) :
    Reports quiet first third := by
  obtain ⟨report, complaint, rfl, silent⟩ := one
  obtain ⟨report', complaint', rfl, silent'⟩ := two
  refine ⟨report ++ report', complaint ++ complaint', by simp only [String.append_assoc], ?_⟩
  intro isQuiet
  rw [silent isQuiet, silent' isQuiet, String.append_empty]

/-- Reports say nothing about the files. -/
theorem Reports.withDirectory {quiet : Prop} {after : World} (reports : Reports quiet before after)
    (directory : Directory) :
    after.directory = before.directory ∧
      Reports quiet { before with directory } { after with directory } := by
  obtain ⟨report, complaint, rfl, silent⟩ := reports
  exact ⟨rfl, report, complaint, rfl, silent⟩

theorem ensures_complain (quiet : Prop) (text : String) :
    Ensures before (Host.complain text : StateM σ Unit) fun _ after =>
      Reports quiet before after := by
  apply Ensures.request (Surroundings.complain text)
  exact ⟨"", text, by rw [String.append_empty], fun _ => rfl⟩

/-- A report that is not asked for if all is quiet. -/
theorem ensures_printIf {quiet : Prop} {asked : Bool} {text : String}
    (silent : quiet → asked = false) :
    Ensures before (printIf asked text : Phase (StateM σ) Unit).run fun result after =>
      result = .ok () ∧ Reports quiet before after := by
  cases asked with
  | true =>
      rw [printIf, if_pos rfl, ← bind_pure (ExceptT.lift (Host.print text))]
      apply Ensures.lift (Surroundings.print text)
      refine Ensures.pure ⟨rfl, text, "", by rw [String.append_empty], ?_⟩
      intro isQuiet
      cases silent isQuiet
  | false => exact Ensures.pure ⟨rfl, Reports.refl quiet before⟩

/-- A text that is printed in any case. -/
theorem Ensures.show {text : String} {next : Unit → Phase (StateM σ) β}
    {holds : Except Halt β → World → Prop}
    (rest : Ensures { before with stdout := before.stdout ++ text } (next ()).run holds) :
    Ensures before (CommandLine.printIf true text >>= next).run holds := by
  rw [CommandLine.printIf, if_pos rfl]
  exact Ensures.lift (Surroundings.print text) rest

theorem Ensures.printIf {quiet : Prop} {asked : Bool} {text : String}
    {next : Unit → Phase (StateM σ) β} {holds : Except Halt β → World → Prop}
    (silent : quiet → asked = false)
    (rest : ∀ after, Reports quiet before after → Ensures after (next ()).run holds) :
    Ensures before (CommandLine.printIf asked text >>= next).run holds := by
  apply Ensures.phase (ensures_printIf silent)
  · intro halt after impossible
    cases impossible.1
  · intro _ after reached
    exact rest after reached.2

end

end MiniPascal.CommandLine
