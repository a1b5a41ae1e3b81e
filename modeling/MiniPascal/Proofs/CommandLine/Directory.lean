import MiniPascal.CommandLine.Directory
import MiniPascal.Proofs.CommandLine.Path

/-!
# What a write does to a directory

A write puts a file at the place to which its path leads, and leaves every other place as it was.
The folders on the way stay folders, so that the path leads there also afterwards.
-/

namespace MiniPascal.CommandLine

namespace Directory

/-- Two directories that differ at most in one file: in the second one a path leads to it, and there
it holds a text. -/
def Rewritten (before after : Directory) (path text : String) : Prop :=
  ∃ place, after.follow (start path) (Path.parts path) = .ok place ∧
    after.node? place = some (.file text.toByteArray.data.toList) ∧
    ∀ other, other ≠ place → after.node? other = before.node? other

variable {directory before after : Directory} {place final : List String} {parts : List String}
variable {path text : String}

/-! ### Following a path -/

/-- Where a part of a path leads from a folder. -/
def advance (place : List String) (part : String) : List String :=
  if part = "" || part = "." then place
  else if part = ".." then parent place
  else place ++ [part]

theorem follow_cons {part : String} (found : directory.node? place = some .folder) :
    directory.follow place (part :: parts) = directory.follow (advance place part) parts := by
  simp only [follow, found, advance]
  split
  · rfl
  · split <;> rfl

/-- A path with parts can only be followed from a folder. -/
theorem node?_of_follow_cons {part : String}
    (followed : directory.follow place (part :: parts) = .ok final) :
    directory.node? place = some .folder := by
  rw [follow] at followed
  split at followed
  · cases followed
  · cases followed
  · assumption

theorem follow_nil_eq_ok :
    directory.follow place [] = .ok final ↔ (directory.node? place).isSome ∧ place = final := by
  rw [follow]
  split
  · next found => simp [found]
  · next absent => simp [absent]

/-- A path still leads to where it led if folders stay folders and nothing is lost. -/
theorem follow_of_keeps
    (folders : ∀ place, before.node? place = some .folder → after.node? place = some .folder)
    (nodes : ∀ place, (before.node? place).isSome → (after.node? place).isSome)
    (followed : before.follow place parts = .ok final) :
    after.follow place parts = .ok final := by
  induction parts generalizing place with
  | nil =>
      rw [follow_nil_eq_ok] at followed ⊢
      exact ⟨nodes place followed.1, followed.2⟩
  | cons part rest ih =>
      have found := node?_of_follow_cons followed
      rw [follow_cons found] at followed
      rw [follow_cons (folders place found)]
      exact ih followed

/-- What comes behind a path that leads to a folder is followed from there. -/
theorem follow_append {folder front back : List String}
    (followed : directory.follow place front = .ok folder) :
    directory.follow place (front ++ back) = directory.follow folder back := by
  induction front generalizing place with
  | nil =>
      rw [follow_nil_eq_ok] at followed
      rw [List.nil_append, followed.2]
  | cons part rest ih =>
      have found := node?_of_follow_cons followed
      rw [follow_cons found] at followed
      rw [List.cons_append, follow_cons found]
      exact ih followed

/-! ### The place of a write -/

theorem ne_slash_of_mem_parts {part : String} (member : part ∈ Path.parts path) : part ≠ "/" := by
  rintro rfl
  exact (Path.joins_parts path).2 "/" member (by decide)

/-- What is left of a path without the empty parts at its end does not end with an empty part. -/
theorem ne_empty_of_getLast? {name : String}
    (last : (parts.reverse.dropWhile (· = "")).reverse.getLast? = some name) : name ≠ "" := by
  have proper := List.head?_dropWhile_not (fun part : String => decide (part = "")) parts.reverse
  rw [List.getLast?_reverse] at last
  rw [last] at proper
  simpa using proper

/-- A file is written under the last name of its path, which is a proper one, in the folder to which
the names before it lead. -/
theorem target_eq_ok (found : directory.target path = .ok place) :
    ∃ front name folder, Path.parts path = front ++ [name] ∧ name ∉ ["", ".", ".."] ∧
      directory.follow (start path) front = .ok folder ∧
      directory.node? folder = some .folder ∧ place = folder ++ [name] ∧
      directory.node? place ≠ some .folder := by
  simp only [target] at found
  split at found
  next => cases found
  next name last =>
    have notEmpty := ne_empty_of_getLast? last
    obtain ⟨front, named⟩ := List.getLast?_eq_some_iff.1 last
    rw [named, List.dropLast_concat] at found
    split at found
    next => cases found
    next folder followed =>
      split at found
      next => cases found
      next inFolder =>
        split at found
        next => cases found
        next proper =>
          split at found
          next => cases found
          next free =>
            cases found
            simp only [ne_eq, Bool.or_eq_true, decide_eq_true_eq, not_or,
              Decidable.not_not] at proper
            exact ⟨front, name, folder, proper.1.1.symm, by simp [notEmpty, proper],
              followed, Decidable.not_not.1 inFolder, rfl, free⟩

/-- A place with a proper name in it is no outer one. -/
theorem isOuter_append {folder : List String} {name : String} (notUp : name ≠ "..")
    (notSlash : name ≠ "/") : isOuter (folder ++ [name]) = false := by
  rw [isOuter, Bool.or_eq_false_iff, decide_eq_false_iff_not]
  constructor
  · simp [notUp]
  · intro same
    have last := congrArg List.getLast? same
    simp [root, notSlash] at last

/-- The nodes when one has been put at a place that is no outer one. -/
theorem node?_insert {node : Node} {other : List String} (inner : isOuter place = false) :
    { nodes := directory.nodes.insert place node : Directory }.node? other =
      if place = other then some node else directory.node? other := by
  simp only [node?]
  split
  · next outer =>
      have different : place ≠ other := by
        intro same
        rw [← same, inner] at outer
        cases outer
      rw [if_neg different]
  · simp [Std.TreeMap.getElem?_insert]

theorem write_eq_ok (written : directory.write path text = (.ok (), after)) :
    ∃ place, directory.target path = .ok place ∧
      after = { nodes := directory.nodes.insert place (.file text.toByteArray.data.toList) } := by
  rw [write] at written
  split at written
  · cases written
  · next place found =>
      cases written
      exact ⟨place, found, rfl⟩

/-- A write that succeeds puts the whole text into one file. -/
theorem rewritten_of_write (written : directory.write path text = (.ok (), after)) :
    directory.Rewritten after path text := by
  obtain ⟨place, found, stored⟩ := write_eq_ok written
  obtain ⟨front, name, folder, split, proper, followed, inFolder, rfl, free⟩ := target_eq_ok found
  simp only [List.mem_cons, List.not_mem_nil, or_false, not_or] at proper
  have inner : isOuter (folder ++ [name]) = false :=
    isOuter_append proper.2.2 (ne_slash_of_mem_parts (split ▸ List.mem_concat_self))
  have node (other : List String) : after.node? other =
      if folder ++ [name] = other then some (.file text.toByteArray.data.toList)
      else directory.node? other :=
    stored ▸ node?_insert inner
  -- The file takes the place of nothing or of a file, so all folders are still there.
  have folders : ∀ place, directory.node? place = some .folder →
      after.node? place = some .folder := by
    intro place isFolder
    rw [node, if_neg]
    · exact isFolder
    · rintro rfl
      exact free isFolder
  have nodes : ∀ place, (directory.node? place).isSome → (after.node? place).isSome := by
    intro place isNode
    rw [node]
    split
    · rfl
    · exact isNode
  refine ⟨folder ++ [name], ?_, ?_, ?_⟩
  · rw [split, follow_append (follow_of_keeps folders nodes followed),
      follow_cons (folders folder inFolder), follow_nil_eq_ok, node]
    simp [advance, proper]
  · rw [node, if_pos rfl]
  · intro other different
    rw [node, if_neg different.symm]

/-- A write that fails leaves the directory as it is. -/
theorem eq_of_write_error {cause : Error}
    (failed : directory.write path text = (.error cause, after)) : after = directory := by
  rw [write] at failed
  split at failed
  · cases failed
    rfl
  · cases failed

end Directory

end MiniPascal.CommandLine
