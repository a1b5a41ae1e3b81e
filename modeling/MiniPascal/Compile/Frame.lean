import MiniPascal.Tree.Basic

/-!
# Stack frames

The words of a procedure's frame from the stack pointer upwards: the temporary values pushed since
the frame was laid out, the locals with the last one nearest to the top, the parameters likewise,
and the slot of the result.
-/

namespace MiniPascal

/-- The error of popping a word that was not pushed. -/
def Error.stackUnderflow (procedure : String) : Error :=
  .generation s!"stack underflow while emitting procedure '{procedure}'"

/-- The frame of a procedure with a number of temporary words on top. -/
structure Frame where
  procedure : Procedure
  height : Nat := 0
  deriving Repr

namespace Frame

/-- Bytes in a word. -/
def wordSize : Nat := 4

/-- One more temporary word. -/
def push (frame : Frame) : Frame :=
  { frame with height := frame.height + 1 }

/-- One temporary word less. -/
def pop (frame : Frame) : Except Error Frame :=
  match frame.height with
  | 0 => .error (.stackUnderflow frame.procedure.name)
  | height + 1 => .ok { frame with height }

/-- The names of the words above the temporary ones. A name that occurs more than once means its
first word here, so a local hides a parameter and both hide the result. -/
def slots (procedure : Procedure) : List String :=
  procedure.locals.reverse ++ procedure.params.reverse ++ [procedure.name]

/-- The words of a frame are those of the names that the procedure owns. -/
theorem mem_slots {procedure : Procedure} {name : String} :
    name ∈ slots procedure ↔ procedure.owns name = true := by
  simp only [slots, Procedure.owns, List.mem_append, List.mem_reverse, List.mem_singleton,
    Bool.or_eq_true, decide_eq_true_eq, List.contains_iff_mem]
  grind

/-- The distance in bytes from the stack pointer to the slot of the result. -/
def returnSlot (frame : Frame) : Nat :=
  (frame.height + frame.procedure.locals.length + frame.procedure.params.length) * wordSize

/-- The distance in bytes from the stack pointer to the word of a name in the frame. -/
def offset? (frame : Frame) (name : String) : Option Nat :=
  ((slots frame.procedure).idxOf? name).map fun index => (frame.height + index) * wordSize

/-- A name has a word in the frame if the procedure owns it. -/
theorem offset?_eq_none {frame : Frame} {name : String} :
    frame.offset? name = none ↔ frame.procedure.owns name = false := by
  simp [offset?, mem_slots]

end Frame

end MiniPascal
