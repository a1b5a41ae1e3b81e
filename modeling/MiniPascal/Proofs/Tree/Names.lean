import MiniPascal.Tree.Names

/-!
# The names of a program and where they are written

A name that a source text can give is an identifier, a letter followed by letters and digits; a
tree built by hand may hold other names. The targets of a statement are those of its assignments
and those of its reads.
-/

namespace MiniPascal

/-- Whether a name is a letter followed by letters and digits. -/
def isIdentifier (name : String) : Bool :=
  match name.toList with
  | first :: rest => first.isAlpha && rest.all Char.isAlphanum
  | [] => false

/-- The name of a variable or of a called procedure. -/
def Expr.name? : Expr → Option String
  | .var name => some name
  | .call name _ => some name
  | _ => none

/-- The names that a statement writes, followed by those in its expressions. -/
def Stmt.names (statement : Stmt) : List String :=
  statement.targets ++ statement.expressions.filterMap Expr.name?

/-- The names of a procedure and of its body. -/
def Procedure.names (procedure : Procedure) : List String :=
  procedure.name :: (procedure.params ++ procedure.locals ++ procedure.body.names)

/-- All names of a program. -/
def Program.names (program : Program) : List String :=
  program.globals ++ program.body.names ++ program.procedures.flatMap Procedure.names

/-- A program whose names are identifiers. -/
def Program.Named (program : Program) : Prop :=
  ∀ name ∈ program.names, isIdentifier name

theorem isAlphanum_of_isIdentifier {name : String} (identifier : isIdentifier name) :
    name.toList.all Char.isAlphanum := by
  rw [isIdentifier] at identifier
  split at identifier
  · next first rest spelled =>
      rw [Bool.and_eq_true] at identifier
      rw [spelled, List.all_cons, identifier.2, Bool.and_true]
      simp [Char.isAlphanum, identifier.1]
  · cases identifier

mutual

/-- The targets of the assignments of a statement, in the order of its text. -/
def Stmt.assigned : Stmt → List String
  | .assign target _ => [target]
  | .block body => Stmt.assignedAll body
  | .ifThen _ body => body.assigned
  | .ifElse _ thenBranch elseBranch => thenBranch.assigned ++ elseBranch.assigned
  | .loop _ body => body.assigned
  | .read _ => []
  | .write _ => []

/-- The targets of the assignments of statements, in order. -/
def Stmt.assignedAll : List Stmt → List String
  | [] => []
  | first :: rest => first.assigned ++ Stmt.assignedAll rest

end

mutual

/-- The targets of the reads of a statement, in the order of its text. -/
def Stmt.received : Stmt → List String
  | .assign _ _ => []
  | .block body => Stmt.receivedAll body
  | .ifThen _ body => body.received
  | .ifElse _ thenBranch elseBranch => thenBranch.received ++ elseBranch.received
  | .loop _ body => body.received
  | .read target => [target]
  | .write _ => []

/-- The targets of the reads of statements, in order. -/
def Stmt.receivedAll : List Stmt → List String
  | [] => []
  | first :: rest => first.received ++ Stmt.receivedAll rest

end

theorem mem_globalNames {program : Program} {name : String} : name ∈ program.globalNames ↔
    name ∈ program.globals ∨ name ∈ program.body.touched ∨
      ∃ procedure ∈ program.procedures, name ∈ procedure.outerNames := by
  rw [Program.globalNames, List.mem_eraseDups]
  simp

mutual

/-- The targets of a statement are those of its assignments and its reads. -/
theorem mem_targets (tree : Stmt) (name : String) :
    name ∈ tree.targets ↔ name ∈ tree.assigned ∨ name ∈ tree.received := by
  cases tree with
  | assign target value => simp [Stmt.targets, Stmt.assigned, Stmt.received]
  | block body =>
      rw [Stmt.targets, Stmt.assigned, Stmt.received]
      exact mem_targetsAll body name
  | ifThen test body =>
      rw [Stmt.targets, Stmt.assigned, Stmt.received]
      exact mem_targets body name
  | ifElse test thenBranch elseBranch =>
      rw [Stmt.targets, Stmt.assigned, Stmt.received, List.mem_append, List.mem_append,
        List.mem_append, mem_targets thenBranch name, mem_targets elseBranch name, or_or_or_comm]
  | loop test body =>
      rw [Stmt.targets, Stmt.assigned, Stmt.received]
      exact mem_targets body name
  | read target => simp [Stmt.targets, Stmt.assigned, Stmt.received]
  | write value => simp [Stmt.targets, Stmt.assigned, Stmt.received]

/-- The targets of statements are those of their assignments and their reads. -/
theorem mem_targetsAll (trees : List Stmt) (name : String) :
    name ∈ Stmt.targetsAll trees ↔
      name ∈ Stmt.assignedAll trees ∨ name ∈ Stmt.receivedAll trees := by
  cases trees with
  | nil => simp [Stmt.targetsAll, Stmt.assignedAll, Stmt.receivedAll]
  | cons first rest =>
      rw [Stmt.targetsAll, Stmt.assignedAll, Stmt.receivedAll, List.mem_append, List.mem_append,
        List.mem_append, mem_targets first name, mem_targetsAll rest name, or_or_or_comm]

end

theorem mem_touched_of_var {tree : Stmt} {name : String} (read : .var name ∈ tree.expressions) :
    name ∈ tree.touched :=
  List.mem_append_right _ (List.mem_filterMap.2 ⟨.var name, read, rfl⟩)

theorem mem_touched_of_target {tree : Stmt} {name : String}
    (written : name ∈ tree.assigned ∨ name ∈ tree.received) : name ∈ tree.touched :=
  List.mem_append_left _ ((mem_targets tree name).2 written)

/-- Procedures write only their own names and, in assignments, declared variables of the
program. -/
structure Program.WritesOwn (program : Program) : Prop where
  assigned : ∀ procedure ∈ program.procedures, ∀ name ∈ procedure.body.assigned,
    procedure.owns name = true ∨ name ∈ program.globals
  received : ∀ procedure ∈ program.procedures, ∀ name ∈ procedure.body.received,
    procedure.owns name = true

end MiniPascal
