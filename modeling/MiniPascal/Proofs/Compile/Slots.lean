import MiniPascal.Compile.Frame

/-!
# The slots of a frame

Every name that a procedure owns has one word of the frame to itself. Pushes and pops move the
stack pointer and leave the words where they are, so a word keeps its distance to the end of the
temporary values. The last word is that of the result, which can be reached by the name of the
procedure if no local or parameter hides it.
-/

namespace MiniPascal.Frame

variable {procedure : Procedure} {frame : Frame} {name other : String} {index offset : Nat}

/-! ### The words of a procedure -/

theorem length_slots (procedure : Procedure) :
    (slots procedure).length = procedure.locals.length + procedure.params.length + 1 := by
  simp [slots, Nat.add_assoc]

/-- Two names never share a word. -/
theorem eq_of_idxOf?_slots (slot : (slots procedure).idxOf? name = some index)
    (slot' : (slots procedure).idxOf? other = some index) : name = other := by
  obtain ⟨_, found, -⟩ := List.idxOf?_eq_some_iff.1 slot
  obtain ⟨_, found', -⟩ := List.idxOf?_eq_some_iff.1 slot'
  exact found.symm.trans found'

theorem le_of_idxOf?_slots (slot : (slots procedure).idxOf? name = some index) :
    index ≤ procedure.locals.length + procedure.params.length := by
  obtain ⟨short, -⟩ := List.idxOf?_eq_some_iff.1 slot
  rw [length_slots] at short
  exact Nat.le_of_lt_succ short

/-- A name is found in the last place of a list if it stands there and not before. -/
theorem idxOf?_concat_eq_last {front : List String} {last : String} :
    (front ++ [last]).idxOf? name = some front.length ↔ name = last ∧ name ∉ front := by
  rw [List.idxOf?, List.findIdx?_append]
  cases found : front.findIdx? (· == name) with
  | some index =>
      obtain ⟨short, here, -⟩ := List.idxOf?_eq_some_iff.1 found
      have present : name ∈ front := here ▸ List.getElem_mem short
      simp [present, Nat.ne_of_lt short]
  | none =>
      have absent : name ∉ front := List.idxOf?_eq_none_iff.1 found
      by_cases same : name = last
      · subst same
        simp [absent, List.findIdx?_cons]
      · simp [absent, same, Ne.symm same, List.findIdx?_cons]

/-- The last word has the name of the procedure, unless a local or a parameter hides it. -/
theorem idxOf?_slots_eq_last :
    (slots procedure).idxOf? name = some (procedure.locals.length + procedure.params.length) ↔
      name = procedure.name ∧ name ∉ procedure.locals ∧ name ∉ procedure.params := by
  have last : procedure.locals.length + procedure.params.length =
      (procedure.locals.reverse ++ procedure.params.reverse).length := by simp
  rw [slots, last, idxOf?_concat_eq_last]
  simp

/-! ### Offsets -/

theorem offset?_eq_some : frame.offset? name = some offset ↔
    ∃ index, (slots frame.procedure).idxOf? name = some index ∧
      (frame.height + index) * wordSize = offset := by
  rw [offset?, Option.map_eq_some_iff]

theorem isSome_offset? : (frame.offset? name).isSome = frame.procedure.owns name := by
  cases owned : frame.procedure.owns name with
  | false => rw [offset?_eq_none.2 owned, Option.isSome_none]
  | true =>
      rw [Option.isSome_iff_ne_none, Ne, offset?_eq_none, owned]
      simp

/-- A word lies between the temporary values and the end of the frame. -/
theorem bounds_of_offset? (slot : frame.offset? name = some offset) :
    wordSize ∣ offset ∧ wordSize * frame.height ≤ offset ∧ offset ≤ frame.returnSlot := by
  obtain ⟨index, found, rfl⟩ := offset?_eq_some.1 slot
  refine ⟨Nat.dvd_mul_left _ _, ?_, ?_⟩
  · rw [Nat.mul_comm]
    exact Nat.mul_le_mul_right _ (Nat.le_add_right _ _)
  · rw [returnSlot, Nat.add_assoc]
    exact Nat.mul_le_mul_right _ (Nat.add_le_add_left (le_of_idxOf?_slots found) _)

theorem eq_of_offset? (slot : frame.offset? name = some offset)
    (slot' : frame.offset? other = some offset) : name = other := by
  obtain ⟨index, found, rfl⟩ := offset?_eq_some.1 slot
  obtain ⟨index', found', same⟩ := offset?_eq_some.1 slot'
  have same : index' = index := Nat.add_left_cancel (Nat.eq_of_mul_eq_mul_right (by decide) same)
  exact eq_of_idxOf?_slots found (same ▸ found')

/-- The distance of a word to the temporary values is given by its place among the words. -/
theorem offset?_sub_height (frame : Frame) (name : String) :
    (frame.offset? name).map (· - wordSize * frame.height) =
      ((slots frame.procedure).idxOf? name).map (· * wordSize) := by
  rw [offset?, Option.map_map]
  congr 1
  funext index
  simp only [Function.comp_apply, Nat.add_mul, Nat.mul_comm wordSize, Nat.add_sub_cancel_left]

/-- The slot of the result is the last word. -/
theorem offset?_eq_returnSlot : frame.offset? name = some frame.returnSlot ↔
    name = frame.procedure.name ∧ name ∉ frame.procedure.locals ∧
      name ∉ frame.procedure.params := by
  rw [offset?_eq_some, ← idxOf?_slots_eq_last]
  constructor
  · rintro ⟨index, found, same⟩
    rw [returnSlot, Nat.add_assoc] at same
    rw [found, Nat.add_left_cancel (Nat.eq_of_mul_eq_mul_right (by decide) same)]
  · intro found
    exact ⟨_, found, by rw [returnSlot, Nat.add_assoc]⟩

/-! ### Pushes and pops -/

/-- A change of the temporary words. -/
inductive Move where
  | push
  | pop
  deriving DecidableEq, Repr

/-- The frame behind a change. A pop that fails leaves the frame as it is. -/
def move (frame : Frame) : Move → Frame
  | .push => frame.push
  | .pop =>
      match frame.pop with
      | .ok lower => lower
      | .error _ => frame

/-- The frame of a procedure behind changes that come one after another. -/
def after (procedure : Procedure) (moves : List Move) : Frame :=
  moves.foldl move { procedure }

theorem procedure_move (frame : Frame) (change : Move) :
    (frame.move change).procedure = frame.procedure := by
  cases change with
  | push => rfl
  | pop =>
      rw [move, pop]
      cases frame.height with
      | zero => rfl
      | succ height => rfl

theorem procedure_after (procedure : Procedure) (moves : List Move) :
    (after procedure moves).procedure = procedure := by
  have kept (frame : Frame) : (moves.foldl move frame).procedure = frame.procedure := by
    induction moves generalizing frame with
    | nil => rfl
    | cons change rest ih =>
        rw [List.foldl_cons, ih, procedure_move]
  exact kept { procedure }

/-- Behind any pushes and pops, whether or not these fail, exactly the names that the procedure owns
have a word in the frame. The words lie between the temporary values and the slot of the result,
different names have different words, and the distance of a word to the temporary values does not
depend on the pushes and pops. The procedure's name stands for the slot of the result if no local or
parameter has this name; otherwise no name stands for it. -/
theorem offsets_exact (procedure : Procedure) (moves : List Move) :
    let frame := after procedure moves
    (∀ name, (frame.offset? name).isSome = procedure.owns name) ∧
    (∀ name offset, frame.offset? name = some offset →
      wordSize ∣ offset ∧ 4 * frame.height ≤ offset ∧ offset ≤ frame.returnSlot) ∧
    (∀ first second, procedure.owns first = true → procedure.owns second = true →
      first ≠ second → frame.offset? first ≠ frame.offset? second) ∧
    (∀ name others, (frame.offset? name).map (· - 4 * frame.height) =
      ((after procedure others).offset? name).map
        (· - 4 * (after procedure others).height)) ∧
    (frame.offset? procedure.name = some frame.returnSlot ↔
      procedure.name ∉ procedure.locals ∧ procedure.name ∉ procedure.params) ∧
    (procedure.name ∈ procedure.locals ∨ procedure.name ∈ procedure.params →
      ∀ name, frame.offset? name ≠ some frame.returnSlot) := by
  have same := procedure_after procedure moves
  refine ⟨?_, fun name offset => bounds_of_offset?, ?_, ?_, ?_, ?_⟩
  · intro name
    rw [isSome_offset?, same]
  · intro first second owned _ different equal
    rw [← same, ← isSome_offset?, Option.isSome_iff_exists] at owned
    obtain ⟨offset, slot⟩ := owned
    exact different (eq_of_offset? slot (equal ▸ slot))
  · intro name others
    have here := offset?_sub_height (after procedure moves) name
    have there := offset?_sub_height (after procedure others) name
    rw [same] at here
    rw [procedure_after] at there
    exact here.trans there.symm
  · rw [offset?_eq_returnSlot, same]
    exact and_iff_right rfl
  · intro hidden name slot
    rw [offset?_eq_returnSlot, same] at slot
    obtain ⟨rfl, notLocal, notParam⟩ := slot
    cases hidden with
    | inl declared => exact notLocal declared
    | inr declared => exact notParam declared

/-- A procedure with a parameter of its own name and with repeated parameters, of which a local
hides one. -/
def hidingProcedure : Procedure where
  name := "f"
  params := ["n", "f", "k", "n"]
  locals := ["x", "k", "x"]
  body := .block []

theorem offsets_exact_hidingProcedure :
    let frame := after hidingProcedure [.pop, .push, .push, .pop, .push]
    (frame.offset? "f" = some 28 ∧ frame.offset? "n" = some 20 ∧
      hidingProcedure.owns "f" = true ∧ hidingProcedure.owns "n" = true ∧
      (hidingProcedure.name ∈ hidingProcedure.locals ∨
        hidingProcedure.name ∈ hidingProcedure.params)) ∧
    (wordSize ∣ 28 ∧ 4 * frame.height ≤ 28 ∧ 28 ≤ frame.returnSlot) ∧
    frame.offset? "f" ≠ frame.offset? "n" ∧
    ∀ name, frame.offset? name ≠ some 36 := by
  have known := offsets_exact hidingProcedure [.pop, .push, .push, .pop, .push]
  have owned : hidingProcedure.owns "f" = true := by decide
  have owned' : hidingProcedure.owns "n" = true := by decide
  have hidden : hidingProcedure.name ∈ hidingProcedure.locals ∨
      hidingProcedure.name ∈ hidingProcedure.params := by decide
  have slot : (after hidingProcedure [.pop, .push, .push, .pop, .push]).offset? "f" = some 28 := by
    decide +kernel
  exact ⟨⟨slot, by decide +kernel, owned, owned', hidden⟩, known.2.1 "f" 28 slot,
    known.2.2.1 "f" "n" owned owned' (by decide), known.2.2.2.2.2 hidden⟩

end MiniPascal.Frame
