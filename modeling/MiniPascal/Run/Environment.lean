import MiniPascal.Tree.Basic
import Std.Data.TreeMap

/-!
# Scopes and procedures of a running program

There is one global scope and, while a procedure runs, one call scope. A name is read from the
call scope first and from the globals second; reading a name that is bound nowhere binds it to
zero. A callee never sees the scope of its caller.
-/

namespace MiniPascal

/-- Names with their values. -/
abbrev Scope := Std.TreeMap String Int32

/-- The names that a running program knows. Procedures are listed newest first, so that a new one
hides an older one of the same name. -/
structure Environment where
  globals : Scope := ∅
  frame : Option Scope := none
  procedures : List Procedure := []

namespace Environment

/-- Whether a procedure is running. -/
def inCall (environment : Environment) : Bool :=
  environment.frame.isSome

/-- Binds a name in the current scope, whatever else holds it. -/
def declare (environment : Environment) (name : String) (value : Int32) : Environment :=
  match environment.frame with
  | some frame => { environment with frame := some (frame.insert name value) }
  | none => { environment with globals := environment.globals.insert name value }

/-- Writes a name where it is bound: in the call scope, else in the globals, else as a new name of
the current scope. -/
def set (environment : Environment) (name : String) (value : Int32) : Environment :=
  match environment.frame with
  | some frame =>
      if name ∈ frame then { environment with frame := some (frame.insert name value) }
      else if name ∈ environment.globals then
        { environment with globals := environment.globals.insert name value }
      else { environment with frame := some (frame.insert name value) }
  | none => { environment with globals := environment.globals.insert name value }

/-- The value of a global name. -/
def global? (environment : Environment) (name : String) : Option Int32 :=
  environment.globals[name]?

/-- The value of a name where it is bound. -/
def lookup? (environment : Environment) (name : String) : Option Int32 :=
  (environment.frame.bind (·[name]?)).or (environment.global? name)

/-- Reads a name, binding it to zero in the current scope if it is bound nowhere. -/
def get (environment : Environment) (name : String) : Int32 × Environment :=
  match environment.lookup? name with
  | some value => (value, environment)
  | none => (0, environment.declare name 0)

/-- Makes a procedure known under its name. -/
def register (environment : Environment) (procedure : Procedure) : Environment :=
  { environment with procedures := procedure :: environment.procedures }

/-- The procedure known under a name. -/
def procedure (environment : Environment) (name : String) : Except Error Procedure :=
  match environment.procedures.find? (·.name = name) with
  | some procedure => .ok procedure
  | none => .error (.undefinedProcedure name)

/-- Starts a call with its scope. Gives also the scope of the caller, if it has one. -/
def enter (environment : Environment) (frame : Scope) : Option Scope × Environment :=
  (environment.frame, { environment with frame := some frame })

/-- Ends a call and goes back to the scope of the caller. Gives also the scope of the finished
call. -/
def leave (environment : Environment) (caller : Option Scope) : Scope × Environment :=
  (environment.frame.getD ∅, { environment with frame := caller })

end Environment

/-- The scope with which a call starts: the procedure's own name is zero, then each parameter has
its value, then each local is zero; of equal names the last binding counts. -/
def Procedure.frame (procedure : Procedure) (values : List Int32) : Scope :=
  let own : Scope := (∅ : Scope).insert procedure.name 0
  let bound := (procedure.params.zip values).foldl
    (fun scope (name, value) => scope.insert name value) own
  procedure.locals.foldl (fun scope name => scope.insert name 0) bound

end MiniPascal
