import MiniPascal.Proofs.Compile.Code

/-!
# The depth of the stack in code

The depth in front of a line is how many words have been pushed and not popped since the start of
the procedure, going straight through the lines. `Shaped` says of a piece of code that it takes the
stack from one depth to another without popping what is not there, that each of its jumps arrives at
the depth at which it leaves, and that it addresses the words of its frame. Pieces in a row are
shaped if each of them is.
-/

namespace MiniPascal

/-- How many words a line adds to the stack. -/
def Line.effect : Line → Int
  | .instr (.addiu dest source value) =>
      if dest = .stackPointer ∧ source = .stackPointer then
        if value = -4 then 1 else if value = 4 then -1 else 0
      else 0
  | _ => 0

/-- The label to which a line may jump. A call is no jump, since it comes back. -/
def Line.jump? : Line → Option Label
  | .instr (.branch _ _ _ place) => some place
  | .instr (.j place) => some place
  | _ => none

/-- The register that a line writes. -/
def Line.dest? : Line → Option Register
  | .instr (.li dest _) | .instr (.la dest _) | .instr (.lw dest _ _) | .instr (.move dest _)
  | .instr (.addu dest _ _) | .instr (.subu dest _ _) | .instr (.addiu dest _ _)
  | .instr (.mflo dest) | .instr (.mfhi dest) => some dest
  | .instr (.jal _) => some .returnAddress
  | .instr .syscall => some .accumulator
  | _ => none

/-- The distance from the stack pointer of the word that a line accesses through it. -/
def Line.stackOffset? : Line → Option Nat
  | .instr (.lw _ offset base) | .instr (.sw _ offset base) =>
      if base = .stackPointer then some offset else none
  | _ => none

/-- The depth behind lines that start at a depth. -/
def depthAfter (depth : Nat) (lines : List Line) : Nat :=
  lines.foldl (fun (depth : Nat) (line : Line) => (depth + line.effect).toNat) depth

@[simp] theorem depthAfter_nil (depth : Nat) : depthAfter depth [] = depth := rfl

@[simp] theorem depthAfter_cons (depth : Nat) (first : Line) (rest : List Line) :
    depthAfter depth (first :: rest) = depthAfter (depth + first.effect).toNat rest := rfl

@[simp] theorem depthAfter_append (depth : Nat) (first second : List Line) :
    depthAfter depth (first ++ second) = depthAfter (depthAfter depth first) second :=
  List.foldl_append

/-- `name` stands at `index` in the names and not behind it. -/
def LastAt (names : List String) (name : String) (index : Nat) : Prop :=
  names[index]? = some name ∧ ∀ later, index < later → names[later]? ≠ some name

/-- Where the word of a name is, in bytes from the stack pointer on entry of the procedure. -/
inductive SlotAt (procedure : Procedure) (name : String) : Int → Prop where
  | local (index : Nat) : LastAt procedure.locals name index →
      SlotAt procedure name (-4 * (index + 1))
  | param (index : Nat) : name ∉ procedure.locals → LastAt procedure.params name index →
      SlotAt procedure name (4 * (procedure.params.length - 1 - index))
  | result : name ∉ procedure.locals → name ∉ procedure.params → name = procedure.name →
      SlotAt procedure name (4 * procedure.params.length)

/-- Where the word of a mark is, in bytes from the stack pointer on entry of the procedure whose
code it stands in. -/
def SlotUse.At (procedure : Procedure) (address : Int) : SlotUse → Prop
  | .variable owner name => owner = procedure ∧ SlotAt procedure name address
  | .result owner => owner = procedure ∧ address = 4 * procedure.params.length

/-- What holds of a line at a depth, in code that uses the frames of some procedures. -/
structure CodeLine.Fits (owner : Procedure → Prop) (depth : Nat) (item : CodeLine) : Prop where
  covered : 0 ≤ (depth : Int) + item.line.effect
  pointer : item.line.dest? = some .stackPointer → item.line.effect ≠ 0
  slot : ∀ use ∈ item.use, ∃ procedure, owner procedure ∧ ∃ offset,
    item.line.stackOffset? = some offset ∧ use.At procedure ((offset : Int) - 4 * depth)
  returns : ∀ register, item.line = .instr (.jr register) →
    register = .returnAddress ∧ depth = 0

namespace Code

/-- The depth in front of the line at an index of code that starts at a depth. -/
def depthAt (depth : Nat) (code : List CodeLine) (index : Nat) : Nat :=
  depthAfter depth (lines (code.take index))

/-- The code has a label in front of which the depth is `level`. -/
def Site (depth : Nat) (code : List CodeLine) (place : Label) (level : Nat) : Prop :=
  ∃ index, code[index]? = some (label place) ∧ depthAt depth code index = level

/-- The line at an index is the store of a push or the load of a pop. -/
def Transfer (code : List CodeLine) (index : Nat) : Prop :=
  ∃ before register after,
    (code = before ++ push register ++ after ∧ index = before.length + 1) ∨
      (code = before ++ pop register ++ after ∧ index = before.length)

/-- Code that takes the stack from one depth to another. Its jumps lead to its own labels or to
`exits`, which are labels with their depths. It accesses the stack for a mark, in a push or in a
pop. The program ends only at depth zero. -/
structure Shaped (owner : Procedure → Prop) (exits : List (Label × Nat)) (depth depth' : Nat)
    (code : List CodeLine) : Prop where
  ends : depthAfter depth (lines code) = depth'
  fits : ∀ {index : Nat} {item : CodeLine}, code[index]? = some item →
    item.Fits owner (depthAt depth code index)
  jumps : ∀ {index : Nat} {item : CodeLine} {place : Label}, code[index]? = some item →
    item.line.jump? = some place →
      Site depth code place (depthAt depth code index) ∨
        (place, depthAt depth code index) ∈ exits
  unmarked : ∀ {index : Nat} {item : CodeLine}, code[index]? = some item → item.use = none →
    item.line.stackOffset? ≠ none → Transfer code index
  exit : ∀ {index : Nat}, (lines code)[index]? = some (.instr (.li .accumulator Generator.exit)) →
    (lines code)[index + 1]? = some (.instr .syscall) → depthAt depth code (index + 1) = 0
  head : (lines code)[0]? ≠ some (.instr .syscall)

section Pieces

variable {owner : Procedure → Prop} {exits : List (Label × Nat)} {depth middle depth' : Nat}
  {first second : List CodeLine}

theorem depthAt_append_left {index : Nat} (inside : index ≤ first.length) :
    depthAt depth (first ++ second) index = depthAt depth first index := by
  rw [depthAt, depthAt, List.take_append_of_le_length inside]

theorem depthAt_append_right (ends : depthAfter depth (lines first) = middle) (index : Nat) :
    depthAt depth (first ++ second) (first.length + index) = depthAt middle second index := by
  rw [depthAt, depthAt, List.take_length_add_append, lines_append, depthAfter_append, ends]

theorem Site.append_left {place : Label} {level : Nat} (site : Site depth first place level) :
    Site depth (first ++ second) place level := by
  obtain ⟨index, found, same⟩ := site
  have inside : index < first.length := (List.getElem?_eq_some_iff.mp found).1
  exact ⟨index, by rwa [List.getElem?_append_left inside],
    by rwa [depthAt_append_left (Nat.le_of_lt inside)]⟩

theorem Site.append_right {place : Label} {level : Nat}
    (ends : depthAfter depth (lines first) = middle) (site : Site middle second place level) :
    Site depth (first ++ second) place level := by
  obtain ⟨index, found, same⟩ := site
  refine ⟨first.length + index, ?_, by rwa [depthAt_append_right ends]⟩
  rw [List.getElem?_append_right (by omega), Nat.add_sub_cancel_left, found]

theorem Transfer.append_left {index : Nat} (transfer : Transfer first index) :
    Transfer (first ++ second) index := by
  obtain ⟨before, register, after, ⟨rfl, place⟩ | ⟨rfl, place⟩⟩ := transfer
  · exact ⟨before, register, after ++ second, .inl ⟨List.append_assoc .., place⟩⟩
  · exact ⟨before, register, after ++ second, .inr ⟨List.append_assoc .., place⟩⟩

theorem Transfer.append_right {index : Nat} (transfer : Transfer second index) :
    Transfer (first ++ second) (first.length + index) := by
  obtain ⟨before, register, after, ⟨rfl, rfl⟩ | ⟨rfl, rfl⟩⟩ := transfer
  · refine ⟨first ++ before, register, after, .inl ⟨?_, ?_⟩⟩
    · simp only [List.append_assoc]
    · rw [List.length_append, Nat.add_assoc]
  · refine ⟨first ++ before, register, after, .inr ⟨?_, List.length_append.symm⟩⟩
    simp only [List.append_assoc]

theorem Shaped.nil : Shaped owner exits depth depth [] where
  ends := rfl
  fits found := by simp at found
  jumps found := by simp at found
  unmarked found := by simp at found
  exit found := by simp at found
  head := by simp

/-- An element of two lists in a row is in one of them. -/
theorem getElem?_append_cases {α : Type} {before after : List α} {index : Nat} {item : α}
    (found : (before ++ after)[index]? = some item) :
    (index < before.length ∧ before[index]? = some item) ∨
      ∃ index', index = before.length + index' ∧ after[index']? = some item := by
  rcases Nat.lt_or_ge index before.length with inside | outside
  · rw [List.getElem?_append_left inside] at found
    exact .inl ⟨inside, found⟩
  · rw [List.getElem?_append_right outside] at found
    exact .inr ⟨index - before.length, by omega, found⟩

theorem Shaped.append (one : Shaped owner exits depth middle first)
    (two : Shaped owner exits middle depth' second) :
    Shaped owner exits depth depth' (first ++ second) where
  ends := by rw [lines_append, depthAfter_append, one.ends, two.ends]
  fits found := by
    rcases getElem?_append_cases found with ⟨inside, left⟩ | ⟨index, rfl, right⟩
    · rw [depthAt_append_left (Nat.le_of_lt inside)]
      exact one.fits left
    · rw [depthAt_append_right one.ends]
      exact two.fits right
  jumps found jump := by
    rcases getElem?_append_cases found with ⟨inside, left⟩ | ⟨index, rfl, right⟩
    · rw [depthAt_append_left (Nat.le_of_lt inside)]
      exact (one.jumps left jump).imp_left Site.append_left
    · rw [depthAt_append_right one.ends]
      exact (two.jumps right jump).imp_left (Site.append_right one.ends)
  unmarked found free access := by
    rcases getElem?_append_cases found with ⟨inside, left⟩ | ⟨index, rfl, right⟩
    · exact (one.unmarked left free access).append_left
    · exact (two.unmarked right free access).append_right
  exit := by
    intro index ten call
    rw [lines_append] at ten call
    rcases getElem?_append_cases call with ⟨inside, call⟩ | ⟨index', same, call⟩
    · rw [lines, List.length_map] at inside
      rw [depthAt_append_left (Nat.le_of_lt inside)]
      rw [List.getElem?_append_left (by simp [lines]; omega)] at ten
      exact one.exit ten call
    · -- The number of the service and its call are never in two pieces: no piece starts with a call.
      cases index' with
      | zero => exact absurd call two.head
      | succ index' =>
          have same : index = (lines first).length + index' := by omega
          rw [same, List.getElem?_append_right (by omega), Nat.add_sub_cancel_left] at ten
          rw [same, lines, List.length_map, Nat.add_assoc, depthAt_append_right one.ends]
          exact two.exit ten call
  head := by
    rw [lines_append]
    cases first with
    | nil => exact two.head
    | cons item first => exact one.head

/-- Code of one procedure among the code of several. -/
theorem Shaped.among {owner' : Procedure → Prop} (shaped : Shaped owner exits depth depth' first)
    (inside : ∀ procedure, owner procedure → owner' procedure) :
    Shaped owner' exits depth depth' first where
  ends := shaped.ends
  fits found := {
    shaped.fits found with
    slot := fun use marked =>
      let ⟨procedure, owned, address⟩ := (shaped.fits found).slot use marked
      ⟨procedure, inside procedure owned, address⟩ }
  jumps := shaped.jumps
  unmarked := shaped.unmarked
  exit := shaped.exit
  head := shaped.head

theorem Shaped.mono {exits' : List (Label × Nat)} (shaped : Shaped owner exits depth depth' first)
    (inside : ∀ exit ∈ exits, exit ∈ exits' ∨ Site depth first exit.1 exit.2) :
    Shaped owner exits' depth depth' first where
  ends := shaped.ends
  fits := shaped.fits
  jumps found jump := by
    rcases shaped.jumps found jump with site | outside
    · exact .inl site
    · exact (inside _ outside).symm
  unmarked := shaped.unmarked
  exit := shaped.exit
  head := shaped.head

/-- A single line. -/
theorem Shaped.line {item : CodeLine} (fits : item.Fits owner depth)
    (jumps : ∀ place ∈ item.line.jump?, (place, depth) ∈ exits)
    (marked : item.use = none → item.line.stackOffset? = none)
    (noCall : item.line ≠ .instr .syscall) (moved : (depth : Int) + item.line.effect = depth') :
    Shaped owner exits depth depth' [item] where
  ends := by
    rw [lines_cons, lines_nil, depthAfter_cons, depthAfter_nil, moved, Int.toNat_natCast]
  fits {index item'} found := by
    cases index with
    | zero =>
        cases found
        exact fits
    | succ index => simp at found
  jumps {index item' place} found jump := by
    cases index with
    | zero =>
        cases found
        exact .inr (jumps place jump)
    | succ index => simp at found
  unmarked {index item'} found free access := by
    cases index with
    | zero =>
        cases found
        exact absurd (marked free) access
    | succ index => simp at found
  exit _ call := by simp at call
  head := by simpa using noCall

/-- Two lines behind both of which control goes on. -/
theorem Shaped.pair {one two : CodeLine} (fitsOne : one.Fits owner depth)
    (fitsTwo : two.Fits owner middle) (movedOne : (depth : Int) + one.line.effect = middle)
    (movedTwo : (middle : Int) + two.line.effect = depth')
    (goOn : one.line.jump? = none ∧ two.line.jump? = none)
    (unmarked : ∀ {index : Nat} {item : CodeLine}, [one, two][index]? = some item →
      item.use = none → item.line.stackOffset? ≠ none → Transfer [one, two] index)
    (noCall : one.line ≠ .instr .syscall)
    (exit : one.line = .instr (.li .accumulator Generator.exit) →
      two.line = .instr .syscall → middle = 0) :
    Shaped owner exits depth depth' [one, two] := by
  have between : depthAt depth [one, two] 1 = middle := by
    simp [depthAt, movedOne]
  constructor
  · simp [movedOne, movedTwo]
  · intro index item found
    match index with
    | 0 =>
        cases found
        exact fitsOne
    | 1 =>
        cases found
        rwa [between]
    | index + 2 => simp at found
  · intro index item place found jump
    match index with
    | 0 =>
        cases found
        rw [goOn.1] at jump
        cases jump
    | 1 =>
        cases found
        rw [goOn.2] at jump
        cases jump
    | index + 2 => simp at found
  · exact unmarked
  · intro index ten call
    match index with
    | 0 =>
        rw [between]
        exact exit (Option.some.inj ten) (Option.some.inj call)
    | index + 1 => simp at call
  · simpa using noCall

end Pieces

section Instructions

variable {owner : Procedure → Prop} {exits : List (Label × Nat)} {depth : Nat}

/-- Whether an instruction neither moves the stack pointer nor uses it, and control goes on behind
it. -/
def neutral (instruction : Instr) : Bool :=
  let line := Line.instr instruction
  line.dest? ≠ some .stackPointer && line.stackOffset? = none && line.jump? = none &&
    line.effect = 0 && instruction ≠ .syscall &&
    match instruction with
    | .jr _ => false
    | _ => true

theorem shaped_neutral {instruction : Instr} (plain : neutral instruction) :
    Shaped owner exits depth depth [instr instruction] := by
  simp only [neutral, Bool.and_eq_true, decide_eq_true_eq] at plain
  obtain ⟨⟨⟨⟨⟨still, unused⟩, stays⟩, balanced⟩, noCall⟩, goesOn⟩ := plain
  refine Shaped.line ?_ (by simp [instr, stays]) (fun _ => unused) (by simpa [instr] using noCall)
    (by simp [instr, balanced])
  constructor
  · simp [instr, balanced]
  · exact fun moves => absurd moves still
  · simp [instr]
  · intro register same
    cases same
    cases goesOn

/-- Lines that are no instructions. -/
theorem shaped_passive (lines : List Line)
    (passive : ∀ line ∈ lines, ∀ instruction, line ≠ .instr instruction) :
    Shaped owner exits depth depth (lines.map fun line => ⟨line, none⟩) := by
  induction lines with
  | nil => exact Shaped.nil
  | cons first rest ih =>
      obtain ⟨noInstr, passive⟩ := List.forall_mem_cons.mp passive
      refine Shaped.append (Shaped.line ?_ ?_ ?_ (noInstr _) ?_) (ih passive)
      · constructor
        all_goals
          cases first with
          | instr instruction => exact absurd rfl (noInstr instruction)
          | _ => simp [Line.effect, Line.dest?]
      all_goals
        cases first with
        | instr instruction => exact absurd rfl (noInstr instruction)
        | _ => simp [Line.jump?, Line.stackOffset?, Line.effect]

theorem shaped_label (place : Label) : Shaped owner exits depth depth [label place] :=
  shaped_passive [.label place] (by simp)

@[simp] theorem effect_push :
    (Line.instr (.addiu .stackPointer .stackPointer (-4))).effect = 1 := rfl

@[simp] theorem effect_pop :
    (Line.instr (.addiu .stackPointer .stackPointer 4)).effect = -1 := rfl

/-- A line that moves the stack pointer by one word fits where the depth allows it. -/
theorem fits_addiu {value : Int32}
    (covered : 0 ≤ (depth : Int) +
      (Line.instr (.addiu .stackPointer .stackPointer value)).effect)
    (moves : (Line.instr (.addiu .stackPointer .stackPointer value)).effect ≠ 0) :
    (instr (.addiu .stackPointer .stackPointer value)).Fits owner depth where
  covered := covered
  pointer _ := moves
  slot := by simp [instr]
  returns := by simp [instr]

/-- A line that accesses the top of the stack fits anywhere. -/
theorem fits_top {instruction : Instr}
    (access : ∃ register, register ≠ .stackPointer ∧
      (instruction = .lw register 0 .stackPointer ∨ instruction = .sw register 0 .stackPointer)) :
    (instr instruction).Fits owner depth := by
  obtain ⟨register, other, rfl | rfl⟩ := access <;>
    constructor <;> simp [instr, Line.effect, Line.dest?, other]

theorem shaped_push {register : Register} (other : register ≠ .stackPointer) :
    Shaped owner exits depth (depth + 1) (push register) := by
  have stored : (instr (.sw register 0 .stackPointer)).Fits owner (depth + 1) :=
    fits_top ⟨register, other, .inr rfl⟩
  have grows : (depth : Int) + 1 = (depth + 1 : Nat) := by omega
  refine Shaped.pair (fits_addiu (by rw [effect_push]; omega) (by decide)) stored grows
    (by simp [instr, Line.effect]) ⟨rfl, rfl⟩ ?_ (by simp [instr]) (by simp [instr])
  intro index item found free access
  match index with
  | 0 =>
      cases found
      exact absurd rfl access
  | 1 => exact ⟨[], register, [], .inl ⟨rfl, rfl⟩⟩
  | index + 2 => simp at found

theorem shaped_pop {register : Register} (other : register ≠ .stackPointer) :
    Shaped owner exits (depth + 1) depth (pop register) := by
  have removed : (instr (.addiu .stackPointer .stackPointer 4)).Fits owner (depth + 1) :=
    fits_addiu (by rw [effect_pop]; omega) (by decide)
  have shrinks : ((depth + 1 : Nat) : Int) + -1 = depth := by omega
  refine Shaped.pair (fits_top ⟨register, other, .inl rfl⟩) removed (by simp [instr, Line.effect])
    shrinks ⟨rfl, rfl⟩ ?_ (by simp [instr]) (by simp [instr])
  intro index item found free access
  match index with
  | 0 => exact ⟨[], register, [], .inr ⟨rfl, rfl⟩⟩
  | 1 =>
      cases found
      exact absurd rfl access
  | index + 2 => simp at found

theorem shaped_discard (count : Nat) :
    Shaped owner exits (depth + count) depth (discard count) := by
  induction count with
  | zero => exact Shaped.nil
  | succ count ih => exact (shaped_pop (by decide)).append ih

theorem shaped_clearLocals (count : Nat) :
    Shaped owner exits depth (depth + count) (clearLocals count) := by
  induction count generalizing depth with
  | zero => exact Shaped.nil
  | succ count ih =>
      rw [← Nat.add_assoc, Nat.add_right_comm]
      exact ((shaped_neutral rfl).append (shaped_push (by decide))).append ih

theorem shaped_service {number : Int32} (allowed : number = Generator.exit → depth = 0) :
    Shaped owner exits depth depth (service number) := by
  have fits : ∀ item ∈ service number, CodeLine.Fits owner depth item := by
    simp only [service, List.forall_mem_cons, List.not_mem_nil, false_implies, implies_true,
      and_true]
    constructor <;> constructor <;>
      simp [instr, Line.effect, Line.dest?, Register.accumulator, Register.stackPointer]
  simp only [service, List.forall_mem_cons] at fits
  refine Shaped.pair fits.1 fits.2.1 (by simp [instr, Line.effect]) (by simp [instr, Line.effect])
    ⟨rfl, rfl⟩ ?_ (by simp [instr]) (by simpa [instr] using allowed)
  intro index item found free access
  have noAccess : ∀ item ∈ service number, item.line.stackOffset? = none := by
    simp [service, instr, Line.stackOffset?]
  exact absurd (noAccess item (List.mem_of_getElem? found)) access

/-- The branch of a comparison, which may leave for `place`. -/
theorem shaped_branch {relation : Comparison} {left right : Register} {place : Label}
    (leaves : (place, depth) ∈ exits) :
    Shaped owner exits depth depth [instr (.branch relation left right place)] := by
  refine Shaped.line ?_ (by simpa [instr, Line.jump?] using leaves) (fun _ => rfl)
    (by simp [instr]) (by simp [instr, Line.effect])
  constructor <;> simp [instr, Line.effect, Line.dest?]

theorem shaped_j {place : Label} (leaves : (place, depth) ∈ exits) :
    Shaped owner exits depth depth [instr (.j place)] := by
  refine Shaped.line ?_ (by simpa [instr, Line.jump?] using leaves) (fun _ => rfl)
    (by simp [instr]) (by simp [instr, Line.effect])
  constructor <;> simp [instr, Line.effect, Line.dest?]

theorem shaped_return : Shaped owner exits 0 0 [instr (.jr .returnAddress)] := by
  refine Shaped.line ?_ (by simp [instr, Line.jump?]) (fun _ => rfl) (by simp [instr])
    (by simp [instr, Line.effect])
  constructor <;> simp [instr, Line.effect, Line.dest?]

theorem shaped_operate (operator : Operator) :
    Shaped owner exits depth depth (operate operator) := by
  cases operator with
  | add => exact shaped_neutral rfl
  | sub => exact shaped_neutral rfl
  | mul => exact (shaped_neutral rfl).append (shaped_neutral rfl)
  | div => exact (shaped_neutral rfl).append (shaped_neutral rfl)
  | mod => exact (shaped_neutral rfl).append (shaped_neutral rfl)

end Instructions

section Frames

/-- A frame that describes the stack at a depth: the locals and the temporary words on top. The main
statement has none. -/
def FrameAt (owner : Procedure → Prop) (depth : Nat) (frame : Option Frame) : Prop :=
  ∀ inner ∈ frame,
    owner inner.procedure ∧ depth = inner.procedure.locals.length + inner.height

variable {owner : Procedure → Prop} {exits : List (Label × Nat)} {depth : Nat}
  {frame : Option Frame}

theorem FrameAt.deeper (level : FrameAt owner depth frame) :
    FrameAt owner (depth + 1) (Code.deeper frame) := by
  intro outer found
  obtain ⟨inner, present, rfl⟩ := Option.map_eq_some_iff.mp found
  obtain ⟨owned, same⟩ := level inner present
  exact ⟨owned, by rw [same, Frame.push, Nat.add_assoc]⟩

/-- `name` stands at `index` in the names and not in front of it. -/
def FirstAt (names : List String) (name : String) (index : Nat) : Prop :=
  names[index]? = some name ∧ ∀ earlier, earlier < index → names[earlier]? ≠ some name

/-- What comes first in names that follow others is not among the others, or comes first there. -/
theorem FirstAt.append_cases {before after : List String} {name : String} {index : Nat}
    (first : FirstAt (before ++ after) name index) :
    FirstAt before name index ∨
      (name ∉ before ∧ ∃ index', index = before.length + index' ∧ FirstAt after name index') := by
  obtain ⟨found, first⟩ := first
  rcases getElem?_append_cases found with ⟨inside, left⟩ | ⟨index, rfl, right⟩
  · refine .inl ⟨left, fun earlier lower again => first earlier lower ?_⟩
    rwa [List.getElem?_append_left (Nat.lt_trans lower inside)]
  · refine .inr ⟨fun member => ?_, index, rfl, right, fun earlier lower again => ?_⟩
    · obtain ⟨earlier, again⟩ := List.mem_iff_getElem?.mp member
      have inside := (List.getElem?_eq_some_iff.mp again).1
      exact first earlier (by omega) (by rwa [List.getElem?_append_left inside])
    · refine first (before.length + earlier) (by omega) ?_
      rwa [List.getElem?_append_right (by omega), Nat.add_sub_cancel_left]

/-- What comes first in reversed names comes last in the names. -/
theorem FirstAt.lastAt {names : List String} {name : String} {index : Nat}
    (first : FirstAt names.reverse name index) :
    index < names.length ∧ LastAt names name (names.length - 1 - index) := by
  obtain ⟨found, first⟩ := first
  have inside : index < names.length := by
    have bound := (List.getElem?_eq_some_iff.mp found).1
    rwa [List.length_reverse] at bound
  refine ⟨inside, ?_, ?_⟩
  · rwa [List.getElem?_reverse inside] at found
  · intro later behind again
    have inside' : later < names.length := (List.getElem?_eq_some_iff.mp again).1
    refine first (names.length - 1 - later) (by omega) ?_
    rw [List.getElem?_reverse (by omega)]
    have same : names.length - 1 - (names.length - 1 - later) = later := by omega
    rwa [same]

/-- The first of the slots that bears a name is that of its last local, or else that of its last
parameter, or else that of the result. -/
theorem slotAt_of_firstAt {procedure : Procedure} {name : String} {index : Nat}
    (first : FirstAt (Frame.slots procedure) name index) :
    SlotAt procedure name (4 * ((index : Int) - procedure.locals.length)) := by
  rw [Frame.slots, List.append_assoc] at first
  rcases first.append_cases with isLocal | ⟨noLocal, index, rfl, behind⟩
  · obtain ⟨inside, last⟩ := isLocal.lastAt
    have address : 4 * ((index : Int) - procedure.locals.length) =
        -4 * (((procedure.locals.length - 1 - index : Nat) : Int) + 1) := by
      omega
    rw [address]
    exact .local _ last
  rw [List.mem_reverse] at noLocal
  rw [List.length_reverse]
  rcases behind.append_cases with isParam | ⟨noParam, index, rfl, isName⟩
  · obtain ⟨inside, last⟩ := isParam.lastAt
    have address : 4 * (((procedure.locals.length + index : Nat) : Int) -
        procedure.locals.length) = 4 * ((procedure.params.length : Int) - 1 -
          ((procedure.params.length - 1 - index : Nat) : Int)) := by
      omega
    rw [address]
    exact .param _ noLocal last
  · rw [List.mem_reverse] at noParam
    obtain ⟨rfl, same⟩ : index = 0 ∧ procedure.name = name := by
      cases index with
      | zero => exact ⟨rfl, by simpa using isName.1⟩
      | succ index => simp [FirstAt] at isName
    have address : 4 * (((procedure.locals.length + (procedure.params.reverse.length + 0) :
        Nat) : Int) - procedure.locals.length) = 4 * (procedure.params.length : Int) := by
      rw [List.length_reverse]
      omega
    rw [address]
    exact .result noLocal noParam same.symm

/-- The offset of a name leads to its word whatever the depth is. -/
theorem slotAt_of_offset? {inner : Frame} {name : String} {offset : Nat}
    (found : inner.offset? name = some offset)
    (level : depth = inner.procedure.locals.length + inner.height) :
    SlotAt inner.procedure name ((offset : Int) - 4 * depth) := by
  obtain ⟨index, slot, rfl⟩ := Option.map_eq_some_iff.mp found
  obtain ⟨inside, present, first⟩ := List.idxOf?_eq_some_iff.mp slot
  have address : (((inner.height + index) * Frame.wordSize : Nat) : Int) - 4 * depth =
      4 * ((index : Int) - inner.procedure.locals.length) := by
    rw [Frame.wordSize]
    omega
  rw [address]
  refine slotAt_of_firstAt ⟨List.getElem?_eq_some_iff.mpr ⟨inside, present⟩, ?_⟩
  intro earlier before again
  exact first earlier before (List.getElem?_eq_some_iff.mp again).2

/-- A line that accesses the word of a mark. -/
theorem shaped_slot {word : Nat → Register → Instr} {procedure : Procedure} {offset : Nat}
    {use : SlotUse} (kind : word = .lw .accumulator ∨ word = .sw .accumulator)
    (owned : owner procedure) (address : use.At procedure ((offset : Int) - 4 * depth)) :
    Shaped owner exits depth depth [⟨.instr (word offset .stackPointer), some use⟩] := by
  rcases kind with rfl | rfl
  all_goals
    refine Shaped.line ?_ (by simp [Line.jump?]) (by simp) (by simp) (by simp [Line.effect])
    constructor
    · simp [Line.effect]
    · simp [Line.dest?, Register.accumulator, Register.stackPointer]
    · rintro _ ⟨⟩
      exact ⟨procedure, owned, offset, rfl, address⟩
    · simp

theorem shaped_access {word : Nat → Register → Instr}
    (kind : word = .lw .accumulator ∨ word = .sw .accumulator) (name : String)
    (level : FrameAt owner depth frame) :
    Shaped owner exits depth depth (access word frame name) := by
  unfold access
  split
  next procedure offset found =>
    obtain ⟨inner, rfl, slot⟩ := Option.bind_eq_some_iff.mp found
    obtain ⟨offset', found', same⟩ := Option.map_eq_some_iff.mp slot
    cases same
    obtain ⟨owned, same⟩ := level inner rfl
    exact shaped_slot kind owned ⟨rfl, slotAt_of_offset? found' same⟩
  next =>
    refine (shaped_neutral rfl).append (shaped_neutral ?_)
    rcases kind with rfl | rfl <;> rfl

theorem shaped_load (name : String) (level : FrameAt owner depth frame) :
    Shaped owner exits depth depth (load frame name) :=
  shaped_access (.inl rfl) name level

theorem shaped_store (name : String) (level : FrameAt owner depth frame) :
    Shaped owner exits depth depth (store frame name) :=
  shaped_access (.inr rfl) name level

end Frames

end Code

end MiniPascal
