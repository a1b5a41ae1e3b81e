import MiniPascal.Proofs.Compile.Code

/-!
# What a generator emits

`Emits` says what a step of code generation does that checks calls: it appends code, uses up
labels and changes the frame unless one of the calls is at fault, and then it fails with the
first fault. Each node of a tree has such a law with the code that `Code` gives for it, so a
generator fails for no other reason, and `assemble_eq` gives its output for every program.
-/

namespace MiniPascal

/-- What is wrong with a call, given the procedures that are known. -/
def Expr.fault? (procedures : List Procedure) : Expr → Option Error
  | .call name args =>
      match procedures.find? (·.name = name) with
      | none => some (.undefinedProcedure name)
      | some procedure =>
          if args.length < procedure.params.length then
            some (.arity name procedure.params.length args.length)
          else none
  | _ => none

/-- The first fault among expressions. -/
def firstFault (procedures : List Procedure) (expressions : List Expr) : Option Error :=
  expressions.findSome? (Expr.fault? procedures)

/-- The fault of the first procedure that has the name of an earlier one. -/
def repeated? (known : List Procedure) : List Procedure → Option Error
  | [] => none
  | first :: rest =>
      if (known.find? (·.name = first.name)).isSome then
        some (.duplicateProcedure first.name)
      else repeated? (first :: known) rest

/-- What is wrong with a program: a repeated procedure, or else the first call at fault in its
main statement and in the bodies of its procedures. -/
def Program.fault? (program : Program) : Option Error :=
  (repeated? [] program.procedures).or
    (firstFault program.procedures.reverse
      (program.body.expressions ++
        program.procedures.flatMap fun procedure => procedure.body.expressions))

theorem firstFault_append (procedures : List Procedure) (first second : List Expr) :
    firstFault procedures (first ++ second) =
      (firstFault procedures first).or (firstFault procedures second) :=
  List.findSome?_append

/-- A program that can be compiled has no call at fault. -/
theorem sound_of_fault {program : Program} {part : Expr} (fault : program.fault? = none)
    (listed : part ∈ program.body.expressions ∨
      ∃ procedure ∈ program.procedures, part ∈ procedure.body.expressions) :
    part.fault? program.procedures.reverse = none := by
  rw [Program.fault?, Option.or_eq_none_iff] at fault
  refine List.findSome?_eq_none_iff.1 fault.2 part ?_
  simpa using listed

namespace Generator

/-- A generator with more code, more labels given out, and a frame. -/
def extend (generator : Generator) (frame : Option Frame) (count : Nat) (code : List CodeLine) :
    Generator :=
  { generator with
    labels := generator.labels + count
    code := generator.code ++ (Code.lines code).toArray
    frame }

theorem extend_extend (generator : Generator) (frame frame' : Option Frame) (count count' : Nat)
    (code code' : List CodeLine) :
    (generator.extend frame count code).extend frame' count' code' =
      generator.extend frame' (count + count') (code ++ code') := by
  simp [extend, Nat.add_assoc]

/-- What a step does that checks `calls`, from a generator that knows `procedures`, has `frame`
and has given out `labels`: unless a call is at fault, it leaves `frame'`, gives out `count` labels
and appends `code`. -/
def Emits (procedures : List Procedure) (frame : Option Frame) (labels : Nat) (step : Gen Unit)
    (calls : List Expr) (frame' : Option Frame) (count : Nat) (code : List CodeLine) : Prop :=
  ∀ generator : Generator, generator.procedures = procedures → generator.frame = frame →
    generator.labels = labels →
    match firstFault procedures calls with
    | none => step generator = .ok () (generator.extend frame' count code)
    | some cause => ∃ stopped, step generator = .error cause stopped

variable {procedures : List Procedure} {frame frame' frame'' : Option Frame}
variable {labels count count' : Nat} {step first second : Gen Unit}
variable {calls calls' : List Expr} {code code' : List CodeLine}

namespace Emits

/-- A step that cannot fail. -/
theorem of_run (run : ∀ generator : Generator, generator.frame = frame →
      step generator = .ok () (generator.extend frame' count code)) :
    Emits procedures frame labels step [] frame' count code :=
  fun generator _ framed _ => run generator framed

/-- One step after another. -/
theorem seq (emits : Emits procedures frame labels first calls frame' count code)
    (emits' : Emits procedures frame' (labels + count) second calls' frame'' count' code') :
    Emits procedures frame labels (do first; second) (calls ++ calls') frame'' (count + count')
      (code ++ code') := by
  intro generator known framed numbered
  have run := emits generator known framed numbered
  rw [firstFault_append]
  cases fault : firstFault procedures calls with
  | none =>
      simp only [fault] at run
      have run' := emits' (generator.extend frame' count code) known rfl
        (congrArg (· + count) numbered)
      rw [extend_extend] at run'
      simpa only [Option.none_or, bind, EStateM.bind, run] using run'
  | some cause =>
      simp only [fault] at run
      obtain ⟨stopped, failed⟩ := run
      exact ⟨stopped, by simp only [bind, EStateM.bind, failed]⟩

/-- An expression that is no call is never at fault. -/
theorem of_tail {tree : Expr} (sound : tree.fault? procedures = none)
    (emits : Emits procedures frame labels step calls frame' count code) :
    Emits procedures frame labels step (tree :: calls) frame' count code := by
  have fault : firstFault procedures (tree :: calls) = firstFault procedures calls := by
    simp [firstFault, sound]
  intro generator known framed numbered
  rw [fault]
  exact emits generator known framed numbered

/-- Going on from the current state. -/
theorem of_get {next : Generator → Gen Unit}
    (emits : ∀ generator : Generator, generator.frame = frame →
      Emits procedures frame labels (next generator) calls frame' count code) :
    Emits procedures frame labels (do next (← get)) calls frame' count code :=
  fun generator known framed numbered =>
    emits generator framed generator known framed numbered

end Emits

/-! ## Single lines -/

theorem get_apply (generator : Generator) :
    (get : Gen Generator) generator = .ok generator generator := rfl

theorem modify_apply (change : Generator → Generator) (generator : Generator) :
    (modify change : Gen Unit) generator = .ok () (change generator) := rfl

theorem emits_nothing : Emits procedures frame labels (pure ()) [] frame 0 [] := by
  apply Emits.of_run
  intro generator framed
  simp [extend, ← framed, pure, EStateM.pure]

theorem emits_line (line : CodeLine) :
    Emits procedures frame labels (emit line.line) [] frame 0 [line] := by
  apply Emits.of_run
  intro generator framed
  simp [emit, extend, ← framed, modify_apply]

theorem emits_instr (instruction : Instr) :
    Emits procedures frame labels (instr instruction) [] frame 0 [Code.instr instruction] :=
  emits_line (Code.instr instruction)

theorem emits_label (place : Label) :
    Emits procedures frame labels (emit (.label place)) [] frame 0 [Code.label place] :=
  emits_line (Code.label place)

theorem emits_instrs (first second : Instr) :
    Emits procedures frame labels (do instr first; instr second) [] frame 0
      [Code.instr first, Code.instr second] :=
  (emits_instr first).seq (emits_instr second)

/-- Changing the frame emits nothing. -/
theorem emits_modify_frame (change : Option Frame → Option Frame) :
    Emits procedures frame labels
      (modify fun generator => { generator with frame := change generator.frame }) []
      (change frame) 0 [] := by
  apply Emits.of_run
  intro generator framed
  simp [extend, framed, modify_apply]

theorem emits_push (register : Register) :
    Emits procedures frame labels (push register) [] (Code.deeper frame) 0
      (Code.push register) :=
  (emits_modify_frame (Option.map Frame.push)).seq (emits_instrs _ _)

/-- Popping undoes a push of the frame, so it never finds the frame empty. -/
theorem emits_pop (register : Register) :
    Emits procedures (Code.deeper frame) labels (pop register) [] frame 0
      (Code.pop register) := by
  apply Emits.of_get
  intro generator framed
  rw [framed]
  cases frame with
  | none => exact emits_instrs _ _
  | some frame => exact (emits_modify_frame fun _ => some frame).seq (emits_instrs _ _)

theorem emits_discard (count : Nat) :
    Emits procedures (Code.deepen count frame) labels (discard count) [] frame 0
      (Code.discard count) := by
  induction count with
  | zero => exact emits_nothing
  | succ count ih =>
      rw [Code.deepen_succ]
      exact (emits_pop .accumulator).seq ih

/-- The common shape of loading and storing. -/
theorem emits_access (word : Nat → Register → Instr) (name : String) :
    Emits procedures frame labels (do
      match (← get).offset? name with
      | some offset => instr (word offset .stackPointer)
      | none => do
          instr (.la .scratch (.global name))
          instr (word 0 .scratch)) [] frame 0 (Code.access word frame name) := by
  apply Emits.of_get
  intro generator framed
  cases frame with
  | none =>
      simp only [offset?, framed, Option.bind_none]
      exact emits_instrs _ _
  | some frame =>
      simp only [offset?, framed, Option.bind_some, Code.access]
      cases placed : frame.offset? name with
      | none => exact emits_instrs _ _
      | some offset => exact emits_line ⟨.instr (word offset .stackPointer), _⟩

theorem emits_load (name : String) :
    Emits procedures frame labels (load name) [] frame 0 (Code.load frame name) :=
  emits_access (.lw .accumulator) name

theorem emits_store (name : String) :
    Emits procedures frame labels (store name) [] frame 0 (Code.store frame name) :=
  emits_access (.sw .accumulator) name

theorem emits_operate (operator : Operator) :
    Emits procedures frame labels (operate operator) [] frame 0 (Code.operate operator) := by
  cases operator with
  | add | sub => exact emits_instr _
  | mul | div | mod => exact emits_instrs _ _

/-! ## Expressions -/

theorem emits_operands {left right : Gen Unit}
    (emitsLeft : Emits procedures frame labels left calls frame count code)
    (emitsRight : Emits procedures (Code.deeper frame) (labels + count) right calls'
      (Code.deeper frame) count' code') :
    Emits procedures frame labels (operands left right) (calls ++ calls') frame (count + count')
      (Code.operands code code') := by
  have emitted := emitsLeft.seq ((emits_push .accumulator).seq (emitsRight.seq
    (emits_pop .scratch)))
  rw [operands]
  simpa [Code.operands] using emitted

theorem emits_compare {left right : Gen Unit} (relation : Comparison) (otherwise : Label)
    (emitsLeft : Emits procedures frame labels left calls frame count code)
    (emitsRight : Emits procedures (Code.deeper frame) (labels + count) right calls'
      (Code.deeper frame) count' code') :
    Emits procedures frame labels (compare relation left right otherwise) (calls ++ calls') frame
      (count + count') (Code.compare relation code code' otherwise) := by
  have emitted := (emits_operands emitsLeft emitsRight).seq
    (emits_instr (.branch relation.negate .scratch .accumulator otherwise))
  rwa [List.append_nil] at emitted

/-- Going on with a fresh label. -/
theorem Emits.of_freshLabel {next : Nat → Gen Unit}
    (emits : Emits procedures frame (labels + 1) (next (labels + 1)) calls frame' count code) :
    Emits procedures frame labels (do next (← freshLabel)) calls frame' (1 + count) code := by
  intro generator known framed numbered
  have run := emits { generator with labels := labels + 1 } known framed rfl
  have fresh : (do next (← freshLabel) : Gen Unit) generator =
      next (labels + 1) { generator with labels := labels + 1 } := by
    rw [← numbered]
    rfl
  rw [fresh]
  cases fault : firstFault procedures calls with
  | none =>
      simp only [fault] at run
      rw [run]
      simp [extend, numbered, Nat.add_assoc]
  | some cause =>
      simp only [fault] at run
      exact run

/-- Going on with the procedure that a call means, which is where a call can be at fault. -/
theorem Emits.of_callee {next : Procedure → Gen Unit} {name : String} {args : List Expr}
    (emits : ∀ procedure, procedures.find? (·.name = name) = some procedure →
      procedure.params.length ≤ args.length →
      Emits procedures frame labels (next procedure) calls frame' count code) :
    Emits procedures frame labels (do next (← callee name args.length))
      (.call name args :: calls) frame' count code := by
  intro generator known framed numbered
  have started : (do next (← callee name args.length) : Gen Unit) generator =
      match procedures.find? (·.name = name) with
      | none => .error (.undefinedProcedure name) generator
      | some procedure =>
          if args.length < procedure.params.length then
            .error (.arity name procedure.params.length args.length) generator
          else next procedure generator := by
    simp only [callee, procedure?, known, bind, EStateM.bind, get_apply]
    cases procedures.find? (·.name = name) with
    | none => rfl
    | some procedure =>
        by_cases few : args.length < procedure.params.length
        · simp only [few, if_true]
          rfl
        · simp only [few, if_false]
          rfl
  rw [started, firstFault, List.findSome?_cons, Expr.fault?, ← firstFault]
  cases found : procedures.find? (·.name = name) with
  | none => exact ⟨generator, rfl⟩
  | some procedure =>
      by_cases few : args.length < procedure.params.length
      · simp only [few, if_true]
        exact ⟨generator, rfl⟩
      · simp only [few, if_false]
        exact emits procedure found (Nat.le_of_not_lt few) generator known framed numbered

mutual

theorem emits_expression (tree : Expr) (frame : Option Frame) (labels : Nat) :
    Emits procedures frame labels (expression tree) tree.parts frame tree.labelCount
      (Code.expression procedures frame labels tree) := by
  cases tree with
  | num value => exact (emits_instr _).of_tail rfl
  | var name => exact (emits_load name).of_tail rfl
  | binary operator left right =>
      have emitted := (emits_operands (emits_expression left frame labels)
        (emits_expression right _ _)).seq (emits_operate operator)
      rw [List.append_nil] at emitted
      exact emitted.of_tail rfl
  | compare relation left right =>
      have compared := emits_compare relation (.numbered "false" (labels + 1))
        (emits_expression left frame (labels + 1)) (emits_expression right _ _)
      have emitted := compared.seq ((emits_instr (.li .accumulator 1)).seq
        ((emits_instr (.j (.numbered "done" (labels + 1)))).seq
          ((emits_label (.numbered "false" (labels + 1))).seq
            ((emits_instr (.li .accumulator 0)).seq
              (emits_label (.numbered "done" (labels + 1)))))))
      rw [Expr.labelCount, Nat.add_assoc]
      apply Emits.of_tail rfl
      apply Emits.of_freshLabel
      simpa [Code.expression, Code.truth] using emitted
  | call name args =>
      apply Emits.of_callee
      intro procedure found enough
      have params : Code.arity procedures name = procedure.params.length := by
        simp [Code.arity, found]
      have emitted : Emits procedures frame labels _ _ frame _ _ :=
        (emits_push .returnAddress).seq ((emits_instr (.li .accumulator 0)).seq
          ((emits_push .accumulator).seq ((emits_arguments args enough _ _).seq
            ((emits_instr (.jal (.procedure name))).seq
              ((emits_discard procedure.params.length).seq
                ((emits_pop .accumulator).seq (emits_pop .returnAddress)))))))
      simpa [Code.expression, Code.call, params, Expr.labelCount] using emitted

theorem emits_arguments (args : List Expr) {params : Nat} (enough : params ≤ args.length)
    (frame : Option Frame) (labels : Nat) :
    Emits procedures frame labels (arguments params args) (Expr.partsAll args)
      (Code.deepen params frame) (Expr.labelCountAll args)
      (Code.arguments procedures frame labels params args) := by
  cases args with
  | nil =>
      have none : params = 0 := Nat.le_zero.mp enough
      subst none
      exact emits_nothing
  | cons first rest =>
      cases params with
      | zero =>
          exact (emits_expression first frame labels).seq
            (emits_arguments rest (Nat.zero_le _) frame _)
      | succ params =>
          have emitted := (emits_expression first frame labels).seq
            ((emits_push .accumulator).seq
              (emits_arguments rest (Nat.le_of_succ_le_succ enough) _ _))
          rw [arguments]
          simpa [Code.arguments, Expr.labelCountAll, Expr.partsAll, Code.deepen] using emitted

end

/-! ## Statements -/

theorem emits_condition (test : Condition) (otherwise : Label) :
    Emits procedures frame labels (condition test otherwise) test.parts frame test.labelCount
      (Code.condition procedures frame labels test otherwise) :=
  emits_compare test.relation otherwise (emits_expression test.left frame labels)
    (emits_expression test.right _ _)

theorem emits_choose {thenBranch elseBranch : Gen Unit} {test : Condition}
    (emitsThen : Emits procedures frame (labels + 1 + test.labelCount) thenBranch calls frame
      count code)
    (emitsElse : Emits procedures frame (labels + 1 + test.labelCount + count) elseBranch calls'
      frame count' code') :
    Emits procedures frame labels (choose test thenBranch elseBranch)
      (test.parts ++ calls ++ calls') frame (1 + test.labelCount + count + count')
      (Code.choose (labels + 1)
        (Code.condition procedures frame (labels + 1) test (.numbered "else" (labels + 1)))
        code code') := by
  have emitted : Emits procedures frame (labels + 1) _ _ frame _ _ :=
    (emits_condition test (.numbered "else" (labels + 1))).seq (emitsThen.seq
      ((emits_instr (.j (.numbered "endif" (labels + 1)))).seq
        ((emits_label (.numbered "else" (labels + 1))).seq
          (emitsElse.seq (emits_label (.numbered "endif" (labels + 1)))))))
  rw [choose, Nat.add_assoc, Nat.add_assoc]
  apply Emits.of_freshLabel
  simpa [Code.choose, Nat.add_assoc] using emitted

theorem emits_loop {body : Gen Unit} {test : Condition}
    (emitsBody : Emits procedures frame (labels + 1 + test.labelCount) body calls frame count
      code) :
    Emits procedures frame labels (loop test body) (test.parts ++ calls) frame
      (1 + test.labelCount + count)
      (Code.loop (labels + 1)
        (Code.condition procedures frame (labels + 1) test (.numbered "endloop" (labels + 1)))
        code) := by
  have emitted : Emits procedures frame (labels + 1) _ _ frame _ _ :=
    (emits_label (.numbered "loop" (labels + 1))).seq
      ((emits_condition test (.numbered "endloop" (labels + 1))).seq (emitsBody.seq
        ((emits_instr (.j (.numbered "loop" (labels + 1)))).seq
          (emits_label (.numbered "endloop" (labels + 1))))))
  rw [loop, Nat.add_assoc]
  apply Emits.of_freshLabel
  simpa [Code.loop] using emitted

theorem emits_service (number : Int32) :
    Emits procedures frame labels (service number) [] frame 0 (Code.service number) :=
  emits_instrs _ _

theorem emits_writeLine :
    Emits procedures frame labels writeLine [] frame 0 Code.writeLine :=
  (emits_instr _).seq ((emits_service _).seq ((emits_instr _).seq (emits_service _)))

mutual

theorem emits_statement (tree : Stmt) (frame : Option Frame) (labels : Nat) :
    Emits procedures frame labels (statement tree) tree.expressions frame tree.labelCount
      (Code.statement procedures frame labels tree) := by
  cases tree with
  | assign target value =>
      have emitted : Emits procedures frame labels _ _ frame _ _ :=
        (emits_expression value frame labels).seq (emits_store target)
      rwa [List.append_nil] at emitted
  | block body => exact emits_statements body frame labels
  | ifThen test body =>
      have emitted : Emits procedures frame labels (choose test (statement body) (pure ())) _
          frame _ _ :=
        emits_choose (emits_statement body frame _) emits_nothing
      rwa [List.append_nil] at emitted
  | ifElse test thenBranch elseBranch =>
      exact emits_choose (emits_statement thenBranch frame _) (emits_statement elseBranch frame _)
  | loop test body => exact emits_loop (emits_statement body frame _)
  | read target => exact (emits_service _).seq (emits_store target)
  | write value =>
      have emitted : Emits procedures frame labels _ _ frame _ _ :=
        (emits_expression value frame labels).seq emits_writeLine
      rwa [List.append_nil] at emitted

theorem emits_statements (trees : List Stmt) (frame : Option Frame) (labels : Nat) :
    Emits procedures frame labels (statements trees) (Stmt.expressionsAll trees) frame
      (Stmt.labelCountAll trees) (Code.statements procedures frame labels trees) := by
  cases trees with
  | nil => exact emits_nothing
  | cons first rest =>
      exact (emits_statement first frame labels).seq (emits_statements rest frame _)

end

/-! ## Procedures and programs -/

theorem emits_clearLocals (count : Nat) :
    Emits procedures none labels (clearLocals count) [] none 0 (Code.clearLocals count) := by
  induction count with
  | zero => exact emits_nothing
  | succ count ih =>
      have emitted : Emits procedures none labels _ _ none _ _ :=
        (emits_instr (.li .accumulator 0)).seq ((emits_push .accumulator).seq ih)
      rw [clearLocals]
      simpa [Code.clearLocals] using emitted

theorem emits_copyResult (procedure : Procedure) :
    Emits procedures (some { procedure }) labels (copyResult procedure) []
      (some { procedure }) 0 (Code.copyResult procedure) := by
  unfold copyResult Code.copyResult
  split
  · apply Emits.of_get
    intro generator framed
    rw [framed]
    exact (emits_load procedure.name).seq
      (emits_line ⟨.instr (.sw .accumulator (Frame.returnSlot { procedure }) .stackPointer), _⟩)
  · exact emits_nothing

/-- Going on without the frame. -/
theorem Emits.of_leave {next : Option Frame → Gen Unit}
    (emits : Emits procedures none labels (next frame) calls frame' count code) :
    Emits procedures frame labels (do next (← leave)) calls frame' count code := by
  intro generator known framed numbered
  have left : (do next (← leave) : Gen Unit) generator =
      next frame { generator with frame := none } := by
    rw [← framed]
    rfl
  rw [left]
  exact emits { generator with frame := none } known rfl numbered

theorem emits_procedure (procedure : Procedure) :
    Emits procedures none labels (Generator.procedure procedure) procedure.body.expressions none
      procedure.body.labelCount (Code.procedure procedures labels procedure) := by
  have entered : Emits procedures none labels (enter procedure) [] (some { procedure }) 0 [] :=
    emits_modify_frame fun _ => some { procedure }
  have ended : Emits procedures none (labels + procedure.body.labelCount) (do
      discard procedure.locals.length
      instr (.jr .returnAddress)) [] none 0
      (Code.discard procedure.locals.length ++ [Code.instr (.jr .returnAddress)]) := by
    have discarded : Emits procedures (Code.deepen procedure.locals.length none)
        (labels + procedure.body.labelCount) _ _ none _ _ :=
      emits_discard procedure.locals.length
    rw [Code.deepen_none] at discarded
    exact discarded.seq (emits_instr (.jr .returnAddress))
  have emitted : Emits procedures none labels (Generator.procedure procedure) _ none _ _ :=
    (emits_label (.procedure procedure.name)).seq
      ((emits_clearLocals procedure.locals.length).seq (entered.seq
        ((emits_statement procedure.body _ _).seq
          ((emits_copyResult procedure).seq (Emits.of_leave ended)))))
  simpa [Code.procedure] using emitted

theorem emits_bodies (bodies : List Procedure) (labels : Nat) :
    Emits procedures none labels (bodies.forM Generator.procedure)
      (bodies.flatMap fun procedure => procedure.body.expressions) none
      (Stmt.labelCountAll (bodies.map Procedure.body))
      (Code.bodies procedures labels bodies) := by
  induction bodies generalizing labels with
  | nil => exact emits_nothing
  | cons first rest ih => exact (emits_procedure first).seq (ih _)

theorem register_run (procedure : Procedure) (generator : Generator) :
    register procedure generator =
      if (generator.procedures.find? (·.name = procedure.name)).isSome then
        .error (.duplicateProcedure procedure.name)
          { generator with procedures := procedure :: generator.procedures }
      else .ok () { generator with procedures := procedure :: generator.procedures } := by
  change (if (generator.procedures.find? (·.name = procedure.name)).isSome then
      throw (.duplicateProcedure procedure.name) else pure () : Gen Unit)
    { generator with procedures := procedure :: generator.procedures } = _
  split <;> rfl

/-- Registering procedures fails at the first repeated name. -/
theorem registers_run (procedures : List Procedure) (generator : Generator) :
    match repeated? generator.procedures procedures with
    | none => procedures.forM register generator =
        .ok () { generator with procedures := procedures.reverse ++ generator.procedures }
    | some cause => ∃ stopped, procedures.forM register generator = .error cause stopped := by
  induction procedures generalizing generator with
  | nil => rfl
  | cons first rest ih =>
      simp only [List.forM_eq_forM, List.forM_cons, bind, EStateM.bind, register_run, repeated?]
      by_cases known : (generator.procedures.find? (·.name = first.name)).isSome
      · simp only [known, if_true]
        exact ⟨_, rfl⟩
      · have continued := ih { generator with procedures := first :: generator.procedures }
        simpa [known] using continued

theorem emits_program (program : Program) :
    Emits procedures none 0 (do
      emit (.directive ".text")
      emit (.directive ".globl main")
      emit (.label .main)
      statement program.body
      service exit
      program.procedures.forM Generator.procedure)
      (program.body.expressions ++
        program.procedures.flatMap fun procedure => procedure.body.expressions) none
      (program.body.labelCount + Stmt.labelCountAll (program.procedures.map Procedure.body))
      ([⟨.directive ".text", none⟩, ⟨.directive ".globl main", none⟩, Code.label .main] ++
        Code.statement procedures none 0 program.body ++ Code.service exit ++
        Code.bodies procedures program.body.labelCount program.procedures) := by
  have emitted : Emits procedures none 0 _ _ none _ _ :=
    (emits_line ⟨.directive ".text", none⟩).seq ((emits_line ⟨.directive ".globl main", none⟩).seq
      ((emits_label .main).seq ((emits_statement program.body none 0).seq
        ((emits_service exit).seq (emits_bodies program.procedures _)))))
  simpa using emitted

/-- Generating a program registers its procedures, lays out its data and emits its code. -/
theorem program_run (program : Program) :
    match program.fault? with
    | none => ∃ generator, Generator.program program {} = .ok () generator ∧
        generator.lines = dataLines program ++ Code.lines (Code.program program)
    | some cause => ∃ stopped, Generator.program program {} = .error cause stopped := by
  have registered := registers_run program.procedures {}
  rw [Program.fault?]
  cases repeated : repeated? [] program.procedures with
  | some cause =>
      simp only [repeated] at registered
      obtain ⟨stopped, failed⟩ := registered
      exact ⟨stopped, by simp only [Generator.program, bind, EStateM.bind, failed]⟩
  | none =>
      simp only [repeated, List.append_nil] at registered
      have emitted := emits_program program
        { procedures := program.procedures.reverse,
          data := (#[] : Array Line) ++ dataLines program }
        rfl rfl rfl
      simp only [Generator.program, bind, EStateM.bind, registered, Option.none_or]
      cases fault : firstFault program.procedures.reverse (program.body.expressions ++
          program.procedures.flatMap fun procedure => procedure.body.expressions) with
      | some cause =>
          simp only [fault] at emitted
          exact emitted
      | none =>
          simp only [fault] at emitted
          exact ⟨_, emitted, by simp [lines, extend, Code.program]⟩

end Generator

/-- The assembly of a program is the data and the code of its tree, unless something is wrong with
the program. -/
theorem assemble_eq (program : Program) :
    assemble program =
      match program.fault? with
      | none => .ok (linesOf program)
      | some cause => .error cause := by
  have run := Generator.program_run program
  rw [assemble, EStateM.run]
  cases fault : program.fault? with
  | some cause =>
      simp only [fault] at run
      obtain ⟨stopped, failed⟩ := run
      rw [failed]
  | none =>
      simp only [fault] at run
      obtain ⟨generator, generated, lines⟩ := run
      rw [generated]
      exact congrArg Except.ok lines

/-- A program has a text of assembly exactly when nothing is wrong with it. -/
theorem compile_eq_ok {program : Program} {text : String} :
    compile program = .ok text ↔
      program.fault? = none ∧ text = Line.renderAll (linesOf program) := by
  rw [compile, assemble_eq]
  cases program.fault? with
  | none => simp [Except.map, eq_comm]
  | some cause => simp [Except.map]

end MiniPascal
