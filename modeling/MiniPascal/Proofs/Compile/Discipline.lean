import MiniPascal.Proofs.Compile.Depth
import MiniPascal.Proofs.Compile.Labels
import MiniPascal.Proofs.Compile.Plain

/-!
# The discipline of the stack

The code of an expression or a statement leaves the stack at the depth at which it found it, and a
procedure returns at depth zero. So the lines of a program's assembly have depths that agree along
every way through them, and a line that was written for a name of a procedure addresses one and the
same word wherever it stands in the procedure.
-/

namespace MiniPascal

namespace Code

section Trees

variable {owner : Procedure → Prop} {exits : List (Label × Nat)} {depth : Nat}
  {procedures : List Procedure} {frame : Option Frame}
  {left right test thenBranch elseBranch body : List CodeLine}

theorem shaped_operands (shapedLeft : Shaped owner exits depth depth left)
    (shapedRight : Shaped owner exits (depth + 1) (depth + 1) right) :
    Shaped owner exits depth depth (operands left right) :=
  ((shapedLeft.append (shaped_push (by decide))).append shapedRight).append
    (shaped_pop (by decide))

theorem shaped_compare {relation : Comparison} {otherwise : Label}
    (shapedLeft : Shaped owner exits depth depth left)
    (shapedRight : Shaped owner exits (depth + 1) (depth + 1) right)
    (leaves : (otherwise, depth) ∈ exits) :
    Shaped owner exits depth depth (compare relation left right otherwise) :=
  (shaped_operands shapedLeft shapedRight).append (shaped_branch leaves)

/-- Two labels of one number at one depth. -/
def pairAt (one two : String) (number depth : Nat) : List (Label × Nat) :=
  [(.numbered one number, depth), (.numbered two number, depth)]

/-- Code that has both labels has no jumps to outside. -/
theorem Shaped.sealed {one two : String} {number depth' : Nat}
    (shaped : Shaped owner (pairAt one two number depth) depth depth' body)
    (siteOne : Site depth body (.numbered one number) depth)
    (siteTwo : Site depth body (.numbered two number) depth) :
    Shaped owner exits depth depth' body := by
  refine shaped.mono fun exit member => .inr ?_
  simp only [pairAt, List.mem_cons, List.not_mem_nil, or_false] at member
  rcases member with rfl | rfl
  · exact siteOne
  · exact siteTwo

/-- The jumps of a comparison that is turned into a value lead to its own labels. -/
theorem shaped_truth {number : Nat}
    (shaped : Shaped owner (pairAt "false" "done" number depth) depth depth test) :
    Shaped owner exits depth depth (truth number test) := by
  have tail : Shaped owner (pairAt "false" "done" number depth) depth depth
      [instr (.li .accumulator 1), instr (.j (.numbered "done" number)),
        label (.numbered "false" number), instr (.li .accumulator 0),
        label (.numbered "done" number)] :=
    (shaped_neutral rfl).append ((shaped_j (by simp [pairAt])).append ((shaped_label _).append
      ((shaped_neutral rfl).append (shaped_label _))))
  refine (shaped.append tail).sealed ?_ ?_
  · exact Site.append_right shaped.ends ⟨2, rfl, by simp [depthAt, instr, Line.effect]⟩
  · exact Site.append_right shaped.ends ⟨4, rfl, by simp [depthAt, instr, label, Line.effect]⟩

theorem shaped_choose {number : Nat}
    (shapedTest : Shaped owner (pairAt "else" "endif" number depth) depth depth test)
    (shapedThen : Shaped owner (pairAt "else" "endif" number depth) depth depth thenBranch)
    (shapedElse : Shaped owner (pairAt "else" "endif" number depth) depth depth elseBranch) :
    Shaped owner exits depth depth (choose number test thenBranch elseBranch) := by
  have branch := shapedTest.append shapedThen
  have jump : Shaped owner (pairAt "else" "endif" number depth) depth depth
      [instr (.j (.numbered "endif" number)), label (.numbered "else" number)] :=
    (shaped_j (by simp [pairAt])).append (shaped_label _)
  have choice := (branch.append jump).append shapedElse
  have site : Site depth [instr (.j (.numbered "endif" number)), label (.numbered "else" number)]
      (.numbered "else" number) depth :=
    ⟨1, rfl, by simp [depthAt, instr, Line.effect]⟩
  refine (choice.append (shaped_label (.numbered "endif" number))).sealed ?_ ?_
  · exact (Site.append_right branch.ends site).append_left.append_left
  · exact Site.append_right choice.ends ⟨0, rfl, rfl⟩

theorem shaped_loop {number : Nat}
    (shapedTest : Shaped owner (pairAt "loop" "endloop" number depth) depth depth test)
    (shapedBody : Shaped owner (pairAt "loop" "endloop" number depth) depth depth body) :
    Shaped owner exits depth depth (loop number test body) := by
  have round := ((shaped_label (.numbered "loop" number)).append shapedTest).append shapedBody
  have jump : Shaped owner (pairAt "loop" "endloop" number depth) depth depth
      [instr (.j (.numbered "loop" number)), label (.numbered "endloop" number)] :=
    (shaped_j (by simp [pairAt])).append (shaped_label _)
  have site : Site depth [label (.numbered "loop" number)] (.numbered "loop" number) depth :=
    ⟨0, rfl, rfl⟩
  refine (round.append jump).sealed ?_ ?_
  · exact site.append_left.append_left.append_left
  · exact Site.append_right round.ends ⟨1, rfl, by simp [depthAt, instr, Line.effect]⟩

/-- None of the expressions is a call at fault. -/
def Sound (procedures : List Procedure) (parts : List Expr) : Prop :=
  ∀ part ∈ parts, part.fault? procedures = none

theorem sound_cons {first : Expr} {rest : List Expr} :
    Sound procedures (first :: rest) ↔ first.fault? procedures = none ∧ Sound procedures rest :=
  List.forall_mem_cons

theorem sound_append {first second : List Expr} :
    Sound procedures (first ++ second) ↔ Sound procedures first ∧ Sound procedures second :=
  List.forall_mem_append

/-- A call that is not at fault has an argument for each parameter. -/
theorem arity_le {name : String} {args : List Expr}
    (sound : (Expr.call name args).fault? procedures = none) :
    arity procedures name ≤ args.length := by
  rw [Expr.fault?] at sound
  split at sound
  next => cases sound
  next procedure found =>
    split at sound
    next => cases sound
    next enough =>
      rw [arity, found]
      exact Nat.le_of_not_lt enough

mutual

/-- The code of an expression leaves the stack as it was. -/
theorem shaped_expression (tree : Expr) (sound : Sound procedures tree.parts) (labels : Nat)
    {frame : Option Frame} {depth : Nat} {exits : List (Label × Nat)}
    (level : FrameAt owner depth frame) :
    Shaped owner exits depth depth (expression procedures frame labels tree) := by
  cases tree with
  | num value =>
      rw [expression]
      exact shaped_neutral rfl
  | var name =>
      rw [expression]
      exact shaped_load name level
  | binary operator left right =>
      rw [Expr.parts, sound_cons, sound_append] at sound
      rw [expression]
      exact (shaped_operands (shaped_expression left sound.2.1 _ level)
        (shaped_expression right sound.2.2 _ level.deeper)).append (shaped_operate operator)
  | compare relation left right =>
      rw [Expr.parts, sound_cons, sound_append] at sound
      rw [expression]
      exact shaped_truth (shaped_compare (shaped_expression left sound.2.1 _ level)
        (shaped_expression right sound.2.2 _ level.deeper) (by simp [pairAt]))
  | call name args =>
      rw [Expr.parts, sound_cons] at sound
      rw [expression]
      have opened : Shaped owner exits depth (depth + 2)
          (push .returnAddress ++ [instr (.li .accumulator 0)] ++ push .accumulator) :=
        ((shaped_push (by decide)).append (shaped_neutral rfl)).append (shaped_push (by decide))
      have pushed := opened.append
        (shaped_arguments args (arity procedures name) sound.2 labels (arity_le sound.1)
          level.deeper.deeper)
      have jumped : Shaped owner exits (depth + 2 + arity procedures name)
          (depth + 2 + arity procedures name) [instr (.jal (.procedure name))] :=
        shaped_neutral rfl
      have called := (pushed.append jumped).append (shaped_discard _)
      exact (called.append (shaped_pop (by decide))).append (shaped_pop (by decide))

/-- The code of the arguments of a call leaves a word for each parameter. -/
theorem shaped_arguments (args : List Expr) (params : Nat)
    (sound : Sound procedures (Expr.partsAll args)) (labels : Nat)
    (enough : params ≤ args.length) {frame : Option Frame} {depth : Nat}
    {exits : List (Label × Nat)} (level : FrameAt owner depth frame) :
    Shaped owner exits depth (depth + params) (arguments procedures frame labels params args) := by
  cases args with
  | nil =>
      obtain rfl : params = 0 := Nat.le_zero.mp enough
      rw [arguments]
      exact Shaped.nil
  | cons first rest =>
      rw [Expr.partsAll, sound_append] at sound
      -- An argument beyond the parameters is evaluated and not pushed.
      cases params with
      | zero =>
          rw [arguments]
          exact (shaped_expression first sound.1 _ level).append
            (shaped_arguments rest 0 sound.2 _ (Nat.zero_le _) level)
      | succ params =>
          rw [arguments, Nat.add_comm params 1, ← Nat.add_assoc]
          rw [List.length_cons] at enough
          exact ((shaped_expression first sound.1 _ level).append (shaped_push (by decide))).append
            (shaped_arguments rest params sound.2 _ (by omega) level.deeper)

end

theorem shaped_condition {test : Condition} (sound : Sound procedures test.parts) (labels : Nat)
    {otherwise : Label} (leaves : (otherwise, depth) ∈ exits) (level : FrameAt owner depth frame) :
    Shaped owner exits depth depth (condition procedures frame labels test otherwise) := by
  rw [Condition.parts, sound_append] at sound
  exact shaped_compare (shaped_expression test.left sound.1 _ level)
    (shaped_expression test.right sound.2 _ level.deeper) leaves

/-- A service that does not end the program. -/
theorem shaped_ask {number : Int32} (goesOn : number ≠ Generator.exit) :
    Shaped owner exits depth depth (service number) :=
  shaped_service (absurd · goesOn)

theorem shaped_writeLine : Shaped owner exits depth depth writeLine :=
  (((shaped_neutral rfl).append (shaped_ask (by decide))).append (shaped_neutral rfl)).append
    (shaped_ask (by decide))

mutual

/-- The code of a statement leaves the stack as it was. -/
theorem shaped_statement (tree : Stmt) (sound : Sound procedures tree.expressions) (labels : Nat)
    {exits : List (Label × Nat)} (level : FrameAt owner depth frame) :
    Shaped owner exits depth depth (statement procedures frame labels tree) := by
  cases tree with
  | assign target value =>
      rw [statement]
      exact (shaped_expression value sound _ level).append (shaped_store target level)
  | block body =>
      rw [statement]
      exact shaped_statements body sound _ level
  | ifThen test body =>
      rw [Stmt.expressions, sound_append] at sound
      rw [statement]
      exact shaped_choose (shaped_condition sound.1 _ (by simp [pairAt]) level)
        (shaped_statement body sound.2 _ level) Shaped.nil
  | ifElse test thenBranch elseBranch =>
      rw [Stmt.expressions, sound_append, sound_append] at sound
      rw [statement]
      exact shaped_choose (shaped_condition sound.1.1 _ (by simp [pairAt]) level)
        (shaped_statement thenBranch sound.1.2 _ level)
        (shaped_statement elseBranch sound.2 _ level)
  | loop test body =>
      rw [Stmt.expressions, sound_append] at sound
      rw [statement]
      exact shaped_loop (shaped_condition sound.1 _ (by simp [pairAt]) level)
        (shaped_statement body sound.2 _ level)
  | read target =>
      rw [statement]
      exact (shaped_ask (by decide)).append (shaped_store target level)
  | write value =>
      rw [statement]
      exact (shaped_expression value sound _ level).append shaped_writeLine

theorem shaped_statements (trees : List Stmt) (sound : Sound procedures (Stmt.expressionsAll trees))
    (labels : Nat) {exits : List (Label × Nat)} (level : FrameAt owner depth frame) :
    Shaped owner exits depth depth (statements procedures frame labels trees) := by
  cases trees with
  | nil =>
      rw [statements]
      exact Shaped.nil
  | cons first rest =>
      rw [Stmt.expressionsAll, sound_append] at sound
      rw [statements]
      exact (shaped_statement first sound.1 _ level).append
        (shaped_statements rest sound.2 _ level)

end

theorem frameAt_body (procedure : Procedure) :
    FrameAt (· = procedure) procedure.locals.length (some { procedure }) := by
  rintro _ ⟨⟩
  exact ⟨rfl, rfl⟩

theorem shaped_copyResult (procedure : Procedure) :
    Shaped (· = procedure) exits procedure.locals.length procedure.locals.length
      (copyResult procedure) := by
  unfold copyResult
  split
  · refine (shaped_load procedure.name (frameAt_body procedure)).append
      (shaped_slot (.inr rfl) rfl ⟨rfl, ?_⟩)
    simp only [Frame.returnSlot, Frame.wordSize]
    omega
  · exact Shaped.nil

/-- The code of a procedure starts and returns at depth zero. -/
theorem shaped_procedure {procedure : Procedure}
    (sound : Sound procedures procedure.body.expressions) (labels : Nat) :
    Shaped (· = procedure) exits 0 0 (Code.procedure procedures labels procedure) := by
  have cleared : Shaped (· = procedure) exits 0 (0 + procedure.locals.length)
      (clearLocals procedure.locals.length) :=
    shaped_clearLocals _
  have discarded : Shaped (· = procedure) exits (0 + procedure.locals.length) 0
      (discard procedure.locals.length) :=
    shaped_discard _
  rw [Nat.zero_add] at cleared discarded
  have opened := (shaped_label (.procedure procedure.name)).append cleared
  have level := frameAt_body procedure
  exact (((opened.append (shaped_statement procedure.body sound labels level)).append
    (shaped_copyResult procedure)).append discarded).append shaped_return

end Trees

section Programs

variable {procedures trees : List Procedure} {exits : List (Label × Nat)} {program : Program}

/-- The marked lines of a program's data and code. -/
def whole (program : Program) : List CodeLine :=
  (Generator.dataLines program).map (fun line => ⟨line, none⟩) ++ Code.program program

theorem lines_whole (program : Program) : lines (whole program) = linesOf program := by
  simp [whole, linesOf, lines, Function.comp_def]

/-- The lines in front of the code of the procedures. -/
def opening (program : Program) : List CodeLine :=
  (Generator.dataLines program).map (fun line => ⟨line, none⟩) ++
    ([⟨.directive ".text", none⟩, ⟨.directive ".globl main", none⟩, label .main] ++
      statement program.procedures.reverse none 0 program.body ++ service Generator.exit)

theorem whole_eq (program : Program) :
    whole program = opening program ++
      bodies program.procedures.reverse program.body.labelCount program.procedures := by
  simp only [whole, Code.program, opening, List.append_assoc]

theorem shaped_data {owner : Procedure → Prop} (program : Program) :
    Shaped owner exits 0 0 ((Generator.dataLines program).map fun line => ⟨line, none⟩) :=
  shaped_passive _ (by simp [Generator.dataLines])

/-- The main statement uses no frame. -/
theorem shaped_opening (sound : Sound program.procedures.reverse program.body.expressions) :
    Shaped (fun _ => False) exits 0 0 (opening program) := by
  have start : Shaped (fun _ => False) exits 0 0
      [⟨.directive ".text", none⟩, ⟨.directive ".globl main", none⟩, label .main] :=
    shaped_passive [.directive ".text", .directive ".globl main", .label .main] (by simp)
  have noFrame : FrameAt (fun _ => False) 0 none := by
    rintro _ ⟨⟩
  exact (shaped_data program).append
    ((start.append (shaped_statement program.body sound 0 noFrame)).append
      (shaped_service fun _ => rfl))

theorem shaped_bodies (sound : ∀ tree ∈ trees, Sound procedures tree.body.expressions)
    (labels : Nat) : Shaped (· ∈ trees) exits 0 0 (bodies procedures labels trees) := by
  induction trees generalizing labels with
  | nil => exact Shaped.nil
  | cons first rest ih =>
      obtain ⟨soundFirst, soundRest⟩ := List.forall_mem_cons.mp sound
      refine ((shaped_procedure soundFirst labels).among ?_).append ((ih soundRest _).among ?_)
      · rintro _ rfl
        exact List.mem_cons_self
      · exact fun _ member => List.mem_cons_of_mem _ member

theorem sound_body (fault : program.fault? = none) :
    Sound program.procedures.reverse program.body.expressions :=
  fun _ listed => sound_of_fault fault (.inl listed)

theorem sound_bodies (fault : program.fault? = none) :
    ∀ tree ∈ program.procedures, Sound program.procedures.reverse tree.body.expressions :=
  fun tree member _ listed => sound_of_fault fault (.inr ⟨tree, member, listed⟩)

theorem shaped_whole (fault : program.fault? = none) :
    Shaped (· ∈ program.procedures) exits 0 0 (whole program) := by
  rw [whole_eq]
  exact ((shaped_opening (sound_body fault)).among fun _ => False.elim).append
    (shaped_bodies (sound_bodies fault) _)

/-- The line at an index of the code is one of a piece of the code. -/
def Holds (code piece : List CodeLine) (index : Nat) : Prop :=
  ∃ before after, code = before ++ piece ++ after ∧ before.length ≤ index ∧
    index < before.length + piece.length

theorem Holds.append_right {code piece : List CodeLine} {index : Nat}
    (holds : Holds code piece index) (first : List CodeLine) :
    Holds (first ++ code) piece (first.length + index) := by
  obtain ⟨before, after, rfl, low, high⟩ := holds
  refine ⟨first ++ before, after, by simp only [List.append_assoc], ?_, ?_⟩
  all_goals
    rw [List.length_append]
    omega

/-- A line at an index and a depth stands in the code of one of the procedures, and accesses there
the word of a mark. -/
def Owned (procedures trees : List Procedure) (code : List CodeLine) (index depth : Nat)
    (line : Line) (use : SlotUse) : Prop :=
  ∃ tree ∈ trees, (∃ labels, Holds code (procedure procedures labels tree) index) ∧
    ∃ offset, line.stackOffset? = some offset ∧ use.At tree ((offset : Int) - 4 * depth)

theorem owned_bodies (sound : ∀ tree ∈ trees, Sound procedures tree.body.expressions)
    (labels : Nat) {index : Nat} {item : CodeLine} {use : SlotUse}
    (found : (bodies procedures labels trees)[index]? = some item) (marked : item.use = some use) :
    Owned procedures trees (bodies procedures labels trees) index
      (depthAt 0 (bodies procedures labels trees) index) item.line use := by
  induction trees generalizing labels index with
  | nil => simp [bodies] at found
  | cons first rest ih =>
      obtain ⟨soundFirst, soundRest⟩ := List.forall_mem_cons.mp sound
      have shaped := @shaped_procedure [] procedures first soundFirst labels
      rw [bodies] at found ⊢
      rcases getElem?_append_cases found with ⟨inside, left⟩ | ⟨index, rfl, right⟩
      · rw [depthAt_append_left (Nat.le_of_lt inside)]
        obtain ⟨tree, rfl, address⟩ := (shaped.fits left).slot use marked
        exact ⟨tree, List.mem_cons_self, ⟨labels, [], _, rfl, Nat.zero_le _, by simpa using inside⟩,
          address⟩
      · rw [depthAt_append_right shaped.ends]
        obtain ⟨tree, member, ⟨labels', holds⟩, address⟩ := ih soundRest _ right
        exact ⟨tree, List.mem_cons_of_mem _ member, ⟨labels', holds.append_right _⟩, address⟩

theorem owned_whole (fault : program.fault? = none) {index : Nat} {item : CodeLine}
    {use : SlotUse} (found : (whole program)[index]? = some item) (marked : item.use = some use) :
    Owned program.procedures.reverse program.procedures (whole program) index
      (depthAt 0 (whole program) index) item.line use := by
  have shaped := @shaped_opening [] program (sound_body fault)
  rw [whole_eq] at found ⊢
  rcases getElem?_append_cases found with ⟨inside, left⟩ | ⟨index, rfl, right⟩
  · obtain ⟨_, ⟨⟩, _⟩ := (shaped.fits left).slot use marked
  · rw [depthAt_append_right shaped.ends]
    obtain ⟨tree, member, ⟨labels, holds⟩, address⟩ :=
      owned_bodies (sound_bodies fault) _ right marked
    exact ⟨tree, member, ⟨labels, holds.append_right _⟩, address⟩

theorem site_bodies (sound : ∀ tree ∈ trees, Sound procedures tree.body.expressions)
    (labels : Nat) {tree : Procedure} (member : tree ∈ trees) :
    Site 0 (bodies procedures labels trees) (.procedure tree.name) 0 := by
  induction trees generalizing labels with
  | nil => cases member
  | cons first rest ih =>
      obtain ⟨soundFirst, soundRest⟩ := List.forall_mem_cons.mp sound
      have shaped := @shaped_procedure [] procedures first soundFirst labels
      rcases List.mem_cons.mp member with rfl | later
      · exact Site.append_left ⟨0, rfl, rfl⟩
      · exact Site.append_right shaped.ends (ih soundRest _ later)

/-- The labels at which a program or one of its procedures starts. -/
def entries (program : Program) : List Label :=
  .main :: program.procedures.map fun tree => .procedure tree.name

theorem site_whole (fault : program.fault? = none) {place : Label}
    (entry : place ∈ entries program) : Site 0 (whole program) place 0 := by
  rw [whole_eq]
  rcases List.mem_cons.mp entry with rfl | named
  · have data : Shaped (fun _ => False) [] 0 0 _ := shaped_data program
    exact (Site.append_right data.ends ⟨2, rfl, by simp [depthAt, Line.effect]⟩).append_left
  · obtain ⟨tree, member, rfl⟩ := List.mem_map.mp named
    exact Site.append_right (@shaped_opening [] program (sound_body fault)).ends
      (site_bodies (sound_bodies fault) _ member)

end Programs

end Code

/-- Whether control can go on behind a line. -/
def Line.passes : Line → Bool
  | .instr (.j _) | .instr (.jr _) => false
  | _ => true

/-- The line at an index is the one with a label. -/
def AtLabel (lines : List Line) (place : Label) (index : Nat) : Prop :=
  lines[index]? = some (.label place) ∧
    ∀ other, lines[other]? = some (.label place) → other = index

/-- Control can go from the line at one index to the line at another. A call goes on behind it. -/
inductive Flows (lines : List Line) : Nat → Nat → Prop where
  | next {index : Nat} {line : Line} : lines[index]? = some line → line.passes →
      Flows lines index (index + 1)
  | jump {index target : Nat} {line : Line} {place : Label} : lines[index]? = some line →
      line.jump? = some place → lines[target]? = some (.label place) → Flows lines index target

/-- The depths in front of the lines of a program's assembly keep the discipline of the stack. -/
structure Disciplined (program : Program) (depth : Nat → Nat) : Prop where
  /-- A push adds one word and a pop removes one, along every way through the lines. -/
  flow : ∀ {index next : Nat} {line : Line}, (linesOf program)[index]? = some line →
    Flows (linesOf program) index next → (depth next : Int) = depth index + line.effect
  /-- Every jump has one label to go to. -/
  lands : ∀ {line : Line} {place : Label}, line ∈ linesOf program → line.jump? = some place →
    ∃ index, AtLabel (linesOf program) place index
  /-- Nothing else moves the stack pointer. -/
  pointer : ∀ {line : Line}, line ∈ linesOf program → line.dest? = some .stackPointer →
    line.effect ≠ 0
  /-- The program and its procedures start with nothing pushed. -/
  entry : ∀ place ∈ Code.entries program, ∃ index,
    AtLabel (linesOf program) place index ∧ depth index = 0
  /-- The program ends with nothing pushed. -/
  exit : ∀ {index : Nat},
    (linesOf program)[index]? = some (.instr (.li .accumulator Generator.exit)) →
    (linesOf program)[index + 1]? = some (.instr .syscall) → depth (index + 1) = 0
  /-- The procedures return with nothing pushed. -/
  returns : ∀ {index : Nat} {register : Register},
    (linesOf program)[index]? = some (.instr (.jr register)) →
    register = .returnAddress ∧ depth index = 0
  /-- What is written for a name or for the result of a procedure accesses its word. -/
  slots : ∀ {index : Nat} {item : CodeLine} {use : SlotUse},
    (Code.whole program)[index]? = some item → item.use = some use →
    Code.Owned program.procedures.reverse program.procedures (Code.whole program) index
      (depth index) item.line use
  /-- All else that accesses the stack is part of a push or of a pop. -/
  unmarked : ∀ {index : Nat} {item : CodeLine}, (Code.whole program)[index]? = some item →
    item.use = none → item.line.stackOffset? ≠ none → Code.Transfer (Code.whole program) index

namespace Code

variable {owner : Procedure → Prop} {exits : List (Label × Nat)} {depth depth' index : Nat}
  {code : List CodeLine}

theorem getElem?_lines {line : Line} :
    (lines code)[index]? = some line ↔ ∃ item, code[index]? = some item ∧ item.line = line := by
  rw [lines, List.getElem?_map, Option.map_eq_some_iff]

theorem Shaped.depthAt_succ (shaped : Shaped owner exits depth depth' code) {item : CodeLine}
    (found : code[index]? = some item) :
    (depthAt depth code (index + 1) : Int) = depthAt depth code index + item.line.effect := by
  have covered := (shaped.fits found).covered
  rw [depthAt, List.take_add_one, found, lines_append, depthAfter_append]
  exact Int.toNat_of_nonneg covered

/-- The index of a label in lines that define it once. -/
theorem eq_of_getElem?_label {lines : List Line} (distinct : (definedLabels lines).Nodup)
    {place : Label} {other : Nat} (here : lines[index]? = some (.label place))
    (there : lines[other]? = some (.label place)) : index = other := by
  have apart := List.pairwise_filterMap.mp distinct
  rw [List.pairwise_iff_getElem] at apart
  obtain ⟨inside, here⟩ := List.getElem?_eq_some_iff.mp here
  obtain ⟨inside', there⟩ := List.getElem?_eq_some_iff.mp there
  by_contra differ
  rcases Nat.lt_or_gt_of_ne differ with before | behind
  · exact apart index other inside inside' before place (by rw [here]; rfl) place
      (by rw [there]; rfl) rfl
  · exact apart other index inside' inside behind place (by rw [there]; rfl) place
      (by rw [here]; rfl) rfl

/-- Depths along a line of code that is shaped and jumps only to its own labels. -/
theorem Shaped.flow (shaped : Shaped owner [] depth depth' code)
    (distinct : (definedLabels (lines code)).Nodup) {next : Nat} {line : Line}
    (found : (lines code)[index]? = some line) (flows : Flows (lines code) index next) :
    (depthAt depth code next : Int) = depthAt depth code index + line.effect := by
  obtain ⟨item, found', rfl⟩ := getElem?_lines.mp found
  cases flows with
  | next => exact shaped.depthAt_succ found'
  | jump again jump target =>
      -- The label that the shape gives is the one that control goes to, since there is only one.
      obtain rfl := Option.some.inj (found.symm.trans again)
      have still : item.line.effect = 0 := by
        revert jump
        fun_cases Line.jump? item.line <;> simp_all [Line.effect]
      rcases shaped.jumps found' jump with ⟨index', site, level⟩ | outside
      · have site := getElem?_lines.mpr ⟨_, site, rfl⟩
        rw [eq_of_getElem?_label distinct target site, level, still, Int.add_zero]
      · cases outside

/-- A label at a depth, in lines that define it once. -/
theorem Site.atLabel {place : Label} {level : Nat} (distinct : (definedLabels (lines code)).Nodup)
    (site : Site depth code place level) :
    ∃ index, AtLabel (lines code) place index ∧ depthAt depth code index = level := by
  obtain ⟨index, found, same⟩ := site
  have here := getElem?_lines.mpr ⟨_, found, rfl⟩
  exact ⟨index, ⟨here, fun other there => eq_of_getElem?_label distinct there here⟩, same⟩

end Code

open Code in
/-- The depths that go straight through the lines keep the discipline. -/
theorem disciplined_depthAt {program : Program} (fault : program.fault? = none) :
    Disciplined program (depthAt 0 (whole program)) := by
  have shaped := @shaped_whole [] program fault
  have distinct := nodup_of_fault fault
  have exits := @shaped.exit
  rw [← lines_whole] at distinct
  simp only [lines_whole] at exits
  have located {index : Nat} {line : Line} (found : (linesOf program)[index]? = some line) :
      ∃ item, (whole program)[index]? = some item ∧ item.line = line := by
    rw [← lines_whole] at found
    exact getElem?_lines.mp found
  refine {
    flow := ?flow
    lands := ?lands
    pointer := ?pointer
    entry := ?entry
    exit := exits
    returns := ?returns
    slots := owned_whole fault
    unmarked := shaped.unmarked }
  case flow =>
    intro index next line found flows
    rw [← lines_whole] at found flows
    exact shaped.flow distinct found flows
  case lands =>
    intro line place member jump
    obtain ⟨index, found⟩ := List.mem_iff_getElem?.mp member
    obtain ⟨item, here, rfl⟩ := located found
    rcases shaped.jumps here jump with site | outside
    · obtain ⟨target, lands, -⟩ := site.atLabel distinct
      rw [lines_whole] at lands
      exact ⟨target, lands⟩
    · cases outside
  case pointer =>
    intro line member
    obtain ⟨index, found⟩ := List.mem_iff_getElem?.mp member
    obtain ⟨item, here, rfl⟩ := located found
    exact (shaped.fits here).pointer
  case entry =>
    intro place entry
    rw [← lines_whole]
    exact (site_whole fault entry).atLabel distinct
  case returns =>
    intro index register found
    obtain ⟨item, here, same⟩ := located found
    exact (shaped.fits here).returns register same

/-- The stack discipline of compiled programs. Their text is read as the lines of the marked code,
and these have depths that are zero at the entry of the program and of each procedure, change by one
word at each push and pop, agree wherever two ways through the lines meet, and are zero again at
each return and at the end. A line written for a name of a procedure accesses the same word of the
frame at every depth. -/
theorem compile_disciplined {program : Program} {text : String} (named : program.Named)
    (compiled : compile program = .ok text) :
    Loader.read? text = some (Code.lines (Code.whole program)) ∧
      ∃ depth, Disciplined program depth := by
  obtain ⟨fault, rfl⟩ := compile_eq_ok.1 compiled
  refine ⟨?_, _, disciplined_depthAt fault⟩
  rw [Code.lines_whole]
  exact read?_compile named compiled

/-- A function with repeated parameters and locals and a local of its own name, which uses them
below pushed operands, in the arguments of a call and in a comparison. -/
def shadowedProgram : Program where
  globals := ["total"]
  procedures := [
    { name := "f", params := ["x", "y", "x"], locals := ["a", "f", "a"],
      body := .block [
        .assign "a" (.binary .add (.var "x")
          (.call "f" [.var "y", .compare .lt (.var "a") (.num 2), .var "x", .var "a"])),
        .ifThen ⟨.gt, .var "y", .var "a"⟩
          (.assign "f" (.binary .mul (.var "total") (.var "a")))] }]
  body := .loop ⟨.gt, .var "total", .num 0⟩
    (.assign "total" (.call "f" [.num 1, .var "total", .num 3]))

theorem compile_disciplined_shadowedProgram :
    shadowedProgram.Named ∧
      compile shadowedProgram = .ok (Line.renderAll (linesOf shadowedProgram)) ∧
      Loader.read? (Line.renderAll (linesOf shadowedProgram)) =
        some (Code.lines (Code.whole shadowedProgram)) ∧
      ∃ depth, Disciplined shadowedProgram depth := by
  have named : shadowedProgram.Named := by
    unfold Program.Named
    decide
  have compiled := compile_eq_ok.2 ⟨(rfl : shadowedProgram.fault? = none), rfl⟩
  exact ⟨named, compiled, compile_disciplined named compiled⟩

end MiniPascal
