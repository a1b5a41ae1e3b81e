import MiniPascal.Proofs.Tree.Names

/-!
# Where a name is mentioned

A statement mentions a name if it assigns to it, reads it from the input or has it as a variable in
one of its expressions. The names that a statement touches are those that it mentions, and a list
without its repetitions has them in the order in which they come first.
-/

namespace MiniPascal

/-- The name is a variable somewhere in an expression. -/
inductive Expr.Mentions (name : String) : Expr → Prop where
  | var : Mentions name (.var name)
  | binaryLeft {operator : Operator} {left right : Expr} (part : left.Mentions name) :
      Mentions name (.binary operator left right)
  | binaryRight {operator : Operator} {left right : Expr} (part : right.Mentions name) :
      Mentions name (.binary operator left right)
  | compareLeft {relation : Comparison} {left right : Expr} (part : left.Mentions name) :
      Mentions name (.compare relation left right)
  | compareRight {relation : Comparison} {left right : Expr} (part : right.Mentions name) :
      Mentions name (.compare relation left right)
  | argument {called : String} {args : List Expr} {arg : Expr} (member : arg ∈ args)
      (part : arg.Mentions name) : Mentions name (.call called args)

/-- The name is a variable somewhere in a condition. -/
def Condition.Mentions (name : String) (condition : Condition) : Prop :=
  condition.left.Mentions name ∨ condition.right.Mentions name

/-- The name is assigned to, read from the input or a variable somewhere in a statement. -/
inductive Stmt.Mentions (name : String) : Stmt → Prop where
  | target {value : Expr} : Mentions name (.assign name value)
  | assigned {target : String} {value : Expr} (part : value.Mentions name) :
      Mentions name (.assign target value)
  | block {body : List Stmt} {tree : Stmt} (member : tree ∈ body) (part : tree.Mentions name) :
      Mentions name (.block body)
  | ifThenTest {test : Condition} {body : Stmt} (part : test.Mentions name) :
      Mentions name (.ifThen test body)
  | ifThen {test : Condition} {body : Stmt} (part : body.Mentions name) :
      Mentions name (.ifThen test body)
  | ifElseTest {test : Condition} {thenBranch elseBranch : Stmt} (part : test.Mentions name) :
      Mentions name (.ifElse test thenBranch elseBranch)
  | thenBranch {test : Condition} {thenBranch elseBranch : Stmt}
      (part : thenBranch.Mentions name) : Mentions name (.ifElse test thenBranch elseBranch)
  | elseBranch {test : Condition} {thenBranch elseBranch : Stmt}
      (part : elseBranch.Mentions name) : Mentions name (.ifElse test thenBranch elseBranch)
  | loopTest {test : Condition} {body : Stmt} (part : test.Mentions name) :
      Mentions name (.loop test body)
  | loop {test : Condition} {body : Stmt} (part : body.Mentions name) :
      Mentions name (.loop test body)
  | received : Mentions name (.read name)
  | written {value : Expr} (part : value.Mentions name) : Mentions name (.write value)

variable {name : String}

mutual

/-- An expression mentions the variables among its parts. -/
theorem var_mem_parts (tree : Expr) : .var name ∈ tree.parts ↔ tree.Mentions name := by
  cases tree with
  | num value =>
      constructor
      · simp [Expr.parts]
      · intro mentions
        cases mentions
  | var other =>
      constructor
      · intro member
        obtain rfl : name = other := by simpa [Expr.parts] using member
        exact .var
      · intro mentions
        cases mentions
        simp [Expr.parts]
  | binary operator left right =>
      simp only [Expr.parts, List.mem_cons, List.mem_append, reduceCtorEq, false_or,
        var_mem_parts left, var_mem_parts right]
      constructor
      · rintro (inLeft | inRight)
        · exact .binaryLeft inLeft
        · exact .binaryRight inRight
      · intro mentions
        cases mentions with
        | binaryLeft part => exact .inl part
        | binaryRight part => exact .inr part
  | compare relation left right =>
      simp only [Expr.parts, List.mem_cons, List.mem_append, reduceCtorEq, false_or,
        var_mem_parts left, var_mem_parts right]
      constructor
      · rintro (inLeft | inRight)
        · exact .compareLeft inLeft
        · exact .compareRight inRight
      · intro mentions
        cases mentions with
        | compareLeft part => exact .inl part
        | compareRight part => exact .inr part
  | call called args =>
      simp only [Expr.parts, List.mem_cons, reduceCtorEq, false_or, var_mem_partsAll args]
      constructor
      · rintro ⟨arg, member, part⟩
        exact .argument member part
      · intro mentions
        cases mentions with
        | argument member part => exact ⟨_, member, part⟩

theorem var_mem_partsAll (trees : List Expr) :
    .var name ∈ Expr.partsAll trees ↔ ∃ tree ∈ trees, tree.Mentions name := by
  cases trees with
  | nil => simp [Expr.partsAll]
  | cons first rest =>
      simp only [Expr.partsAll, List.mem_append, List.mem_cons, exists_eq_or_imp,
        var_mem_parts first, var_mem_partsAll rest]

end

theorem Condition.var_mem_parts (condition : Condition) :
    .var name ∈ condition.parts ↔ condition.Mentions name := by
  rw [Condition.parts, Condition.Mentions, List.mem_append, MiniPascal.var_mem_parts,
    MiniPascal.var_mem_parts]

/-- A name is touched as a target or as a variable. -/
theorem mem_touched {tree : Stmt} :
    name ∈ tree.touched ↔ name ∈ tree.targets ∨ .var name ∈ tree.expressions := by
  rw [Stmt.touched, List.mem_append, List.mem_filterMap]
  apply or_congr Iff.rfl
  constructor
  · rintro ⟨part, member, same⟩
    cases part with
    | var other =>
        cases same
        exact member
    | _ => cases same
  · intro member
    exact ⟨_, member, rfl⟩

mutual

/-- A statement touches the names that it mentions. -/
theorem mem_touched_iff_mentions (tree : Stmt) : name ∈ tree.touched ↔ tree.Mentions name := by
  cases tree with
  | assign target value =>
      simp only [mem_touched, Stmt.targets, Stmt.expressions, List.mem_singleton,
        var_mem_parts value]
      constructor
      · rintro (rfl | part)
        · exact .target
        · exact .assigned part
      · intro mentions
        cases mentions with
        | target => exact .inl rfl
        | assigned part => exact .inr part
  | block body =>
      have inner := mem_touchedAll_iff_mentions body
      rw [mem_touched, Stmt.targets, Stmt.expressions, inner]
      constructor
      · rintro ⟨tree, member, part⟩
        exact .block member part
      · intro mentions
        cases mentions with
        | block member part => exact ⟨_, member, part⟩
  | ifThen test body =>
      rw [mem_touched, Stmt.targets, Stmt.expressions, List.mem_append, or_left_comm,
        ← mem_touched, mem_touched_iff_mentions body, test.var_mem_parts]
      constructor
      · rintro (part | part)
        · exact .ifThenTest part
        · exact .ifThen part
      · intro mentions
        cases mentions with
        | ifThenTest part => exact .inl part
        | ifThen part => exact .inr part
  | ifElse test thenBranch elseBranch =>
      have first := mem_touched_iff_mentions thenBranch
      have second := mem_touched_iff_mentions elseBranch
      rw [mem_touched] at first second
      rw [mem_touched, Stmt.targets, Stmt.expressions]
      simp only [List.mem_append, test.var_mem_parts]
      constructor
      · rintro ((target | target) | ((part | part) | part))
        · exact .thenBranch (first.1 (.inl target))
        · exact .elseBranch (second.1 (.inl target))
        · exact .ifElseTest part
        · exact .thenBranch (first.1 (.inr part))
        · exact .elseBranch (second.1 (.inr part))
      · intro mentions
        cases mentions with
        | ifElseTest part => exact .inr (.inl (.inl part))
        | thenBranch part => exact (first.2 part).imp .inl fun member => .inl (.inr member)
        | elseBranch part => exact (second.2 part).imp .inr .inr
  | loop test body =>
      rw [mem_touched, Stmt.targets, Stmt.expressions, List.mem_append, or_left_comm,
        ← mem_touched, mem_touched_iff_mentions body, test.var_mem_parts]
      constructor
      · rintro (part | part)
        · exact .loopTest part
        · exact .loop part
      · intro mentions
        cases mentions with
        | loopTest part => exact .inl part
        | loop part => exact .inr part
  | read target =>
      simp only [mem_touched, Stmt.targets, Stmt.expressions, List.mem_singleton, List.not_mem_nil,
        or_false]
      constructor
      · rintro rfl
        exact .received
      · intro mentions
        cases mentions
        rfl
  | write value =>
      simp only [mem_touched, Stmt.targets, Stmt.expressions, List.not_mem_nil, false_or,
        var_mem_parts value]
      constructor
      · exact .written
      · intro mentions
        cases mentions with
        | written part => exact part

theorem mem_touchedAll_iff_mentions (trees : List Stmt) :
    (name ∈ Stmt.targetsAll trees ∨ .var name ∈ Stmt.expressionsAll trees) ↔
      ∃ tree ∈ trees, tree.Mentions name := by
  cases trees with
  | nil => simp [Stmt.targetsAll, Stmt.expressionsAll]
  | cons first rest =>
      rw [Stmt.targetsAll, Stmt.expressionsAll, List.mem_append, List.mem_append, or_or_or_comm,
        ← mem_touched, mem_touched_iff_mentions first, mem_touchedAll_iff_mentions rest]
      simp only [List.mem_cons, exists_eq_or_imp]

end

/-! ### Lists without repetitions -/

/-- Induction as repetitions are erased: behind the first name it does not occur again. -/
theorem eraseDups_induction {motive : List String → Prop} (nil : motive [])
    (cons : ∀ first rest, motive (rest.filter fun name => !name == first) → motive (first :: rest))
    (names : List String) : motive names := by
  induction bound : names.length using Nat.strongRecOn generalizing names with
  | ind length ih =>
      cases names with
      | nil => exact nil
      | cons first rest =>
          apply cons
          apply ih _ _ _ rfl
          rw [← bound, List.length_cons]
          exact Nat.lt_succ_of_le (List.length_filter_le _ rest)

/-- Erasing repetitions leaves none. -/
theorem nodup_eraseDups (names : List String) : names.eraseDups.Nodup := by
  induction names using eraseDups_induction with
  | nil => exact List.nodup_nil
  | cons first rest ih =>
      rw [List.eraseDups_cons, List.nodup_cons]
      exact ⟨by simp, ih⟩

/-- Two lists with the same head have two names in the same order if their tails have, unless one of
the names is the head. -/
theorem idxOf_cons_lt {head first second : String} {names names' : List String}
    (same : head ≠ first → head ≠ second →
      (names.idxOf first < names.idxOf second ↔ names'.idxOf first < names'.idxOf second)) :
    (head :: names).idxOf first < (head :: names).idxOf second ↔
      (head :: names').idxOf first < (head :: names').idxOf second := by
  simp only [List.idxOf_cons]
  cases isFirst : head == first with
  | true => cases head == second <;> simp
  | false =>
      cases isSecond : head == second with
      | true => simp
      | false => simpa using same (beq_eq_false_iff_ne.1 isFirst) (beq_eq_false_iff_ne.1 isSecond)

/-- A filter keeps the order of the names that it lets through. -/
theorem idxOf_filter_lt {names : List String} {keep : String → Bool} {first second : String}
    (keepsFirst : keep first = true) (keepsSecond : keep second = true) :
    (names.filter keep).idxOf first < (names.filter keep).idxOf second ↔
      names.idxOf first < names.idxOf second := by
  induction names with
  | nil => rfl
  | cons head rest ih =>
      by_cases kept : keep head = true
      · rw [List.filter_cons_of_pos kept]
        exact idxOf_cons_lt fun _ _ => ih
      · have notFirst : (head == first) = false :=
          beq_eq_false_iff_ne.2 fun same => kept (same ▸ keepsFirst)
        have notSecond : (head == second) = false :=
          beq_eq_false_iff_ne.2 fun same => kept (same ▸ keepsSecond)
        rw [List.filter_cons_of_neg kept, ih]
        simp [List.idxOf_cons, notFirst, notSecond]

/-- Without its repetitions a list has its names in the order in which they come first. -/
theorem idxOf_eraseDups_lt (names : List String) (first second : String) :
    names.eraseDups.idxOf first < names.eraseDups.idxOf second ↔
      names.idxOf first < names.idxOf second := by
  induction names using eraseDups_induction with
  | nil => rfl
  | cons head rest ih =>
      rw [List.eraseDups_cons]
      apply idxOf_cons_lt
      intro notFirst notSecond
      rw [ih]
      exact idxOf_filter_lt (by simpa using notFirst.symm) (by simpa using notSecond.symm)

/-! ### The global names of a program -/

/-- The global names are the declared ones, those that the main statement mentions, and those that a
procedure mentions without owning them. -/
theorem mem_globalNames_iff {program : Program} : name ∈ program.globalNames ↔
    name ∈ program.globals ∨ program.body.Mentions name ∨
      ∃ procedure ∈ program.procedures,
        procedure.owns name = false ∧ procedure.body.Mentions name := by
  simp only [mem_globalNames, Procedure.outerNames, List.mem_filter, Bool.not_eq_true',
    mem_touched_iff_mentions, and_comm]

/-- A declared variable is listed in front of another global name if it is declared before it. -/
theorem idxOf_globalNames_lt {program : Program} {first : String}
    (declared : first ∈ program.globals) (second : String) :
    program.globalNames.idxOf first < program.globalNames.idxOf second ↔
      program.globals.idxOf first < program.globals.idxOf second := by
  rw [Program.globalNames, idxOf_eraseDups_lt, List.append_assoc, List.idxOf_append,
    if_pos declared, List.idxOf_append]
  split
  · rfl
  next undeclared =>
    have early := List.idxOf_lt_length_of_mem declared
    rw [List.idxOf_eq_length undeclared]
    exact ⟨fun _ => early, fun _ => Nat.lt_of_lt_of_le early (Nat.le_add_left _ _)⟩

end MiniPascal
