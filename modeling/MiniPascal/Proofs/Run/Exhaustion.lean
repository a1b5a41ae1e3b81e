import MiniPascal.Proofs.Run.Truncation

/-!
# Streams that give out

A run whose output takes only so many bytes is the run with an unlimited output, cut off at the
first byte that does not fit. A run that never reads behind the end of its input, where this ends
with a whole line, is the run on any longer input.
-/

namespace MiniPascal

/-! ### An output that is full -/

/-- The streams of two runs, the first one with a limited output that is not full yet. -/
structure Streams.Limited (limit : Nat) (short long : Streams) : Prop where
  input : short.input = long.input
  limited : short.output.capacity = some limit
  unlimited : long.output.capacity = none
  written : short.output.written = long.output.written
  fits : long.output.written.size ≤ limit

/-- The first run has failed with a full output, and the second one has written more. -/
structure Streams.Full (limit : Nat) (cause : Error) (short long : Streams) : Prop where
  cause : cause = .outputFull
  more : limit < long.output.written.size
  written : short.output.written = long.output.written.take limit

variable {limit : Nat} {short long : Streams}

/-- What has been written behind a full output does not change what fits. -/
theorem Streams.Full.onward {cause : Error} {later : Streams} (full : Full limit cause short long)
    (longer : later.Extends long) : Full limit cause short later := by
  obtain ⟨bytes, written⟩ := longer
  have more := full.more
  constructor
  · exact full.cause
  · rw [written, Array.size_append]
    exact Nat.lt_add_right _ more
  · rw [full.written, written, Array.take_eq_extract, Array.take_eq_extract, Array.extract_append,
      Nat.sub_eq_zero_of_le (Nat.le_of_lt more),
      Array.extract_empty_of_stop_le_start (Nat.zero_le _), Array.append_empty]

theorem Streams.Limited.read (limited : Limited limit short long) :
    Answers (Limited limit) (Full limit) short.read long.read := by
  apply Answers.same
  · simp only [Streams.read, limited.input]
  · constructor
    · simp only [Streams.read, limited.input]
    · exact limited.limited
    · exact limited.unlimited
    · exact limited.written
    · exact limited.fits

/-- An output without a limit takes every text. -/
theorem write_eq_of_unlimited {output : Output} (unlimited : output.capacity = none)
    (text : String) :
    output.write text =
      (.ok (), { output with written := output.written ++ text.toByteArray.data }) := by
  simp only [Output.write, unlimited]

/-- A limited output takes the bytes for which there is room, and fails if these are not all. -/
theorem write_eq_of_limited {output : Output} (limited : output.capacity = some limit)
    (text : String) (fits : output.written.size ≤ limit) :
    output.write text =
      (if (output.written ++ text.toByteArray.data).size ≤ limit then .ok ()
        else .error .outputFull,
      { output with written := (output.written ++ text.toByteArray.data).take limit }) := by
  have room : text.toByteArray.data.size ≤ limit - output.written.size ↔
      (output.written ++ text.toByteArray.data).size ≤ limit := by
    rw [Array.size_append, Nat.le_sub_iff_add_le' fits]
  simp only [Output.write, limited, room]
  split
  next enough => rw [Array.take_eq_extract, Array.extract_eq_self_of_le enough]
  next =>
    rw [Array.take_eq_extract, Array.take_eq_extract, Array.extract_append,
      Array.extract_eq_self_of_le fits, Nat.zero_sub]

theorem Streams.Limited.write (limited : Limited limit short long) (text : String) :
    Answers (Limited limit) (Full limit) (short.write text) (long.write text) := by
  have bounded := write_eq_of_limited limited.limited text (limited.written ▸ limited.fits)
  have free := write_eq_of_unlimited limited.unlimited text
  rw [limited.written] at bounded
  simp only [Streams.write, bounded, free]
  by_cases enough : (long.output.written ++ text.toByteArray.data).size ≤ limit
  · apply Answers.same
    · exact if_pos enough
    · refine ⟨limited.input, limited.limited, limited.unlimited, ?_, enough⟩
      exact Array.extract_eq_self_of_le enough
  · apply Answers.stopped
    · exact if_neg enough
    · exact ⟨rfl, Nat.lt_of_not_le enough, rfl⟩

/-- A limited output, as a reason for a run to be cut short. -/
def Truncation.fullOutput (limit : Nat) : Truncation where
  together := Streams.Limited limit
  stopped := Streams.Full limit
  written limited := limited.written
  onward := Streams.Full.onward
  read := Streams.Limited.read
  write := Streams.Limited.write

/-- A limited output cuts a run short and does nothing else. If all that the run writes to an
unlimited output fits, the same is seen of both runs; otherwise the limited run fails when the
output is full, with just the bytes that fit. No call is active afterwards. -/
theorem observed_limited (fuel : Nat) (program : Program) (input : Input) (limit : Nat) :
    (if (program.observed fuel input none).written.size ≤ limit then
      program.observed fuel input (some limit) = program.observed fuel input none
    else
      (program.observed fuel input (some limit)).halt =
          some (.error (.io "failed to write whole buffer")) ∧
        (program.observed fuel input (some limit)).written =
          (program.observed fuel input none).written.take limit) ∧
    (program.observed fuel input (some limit)).inCall = false := by
  have alike : (Truncation.fullOutput limit).Alike (.limited input (some limit))
      (.limited input none) :=
    ⟨rfl, rfl, rfl, rfl, rfl, Nat.zero_le limit⟩
  constructor
  · cases ((Truncation.fullOutput limit).ends_run fuel program alike rfl).seen with
    | inl together =>
        have fits : (program.observed fuel input none).written.size ≤ limit := together.2.fits
        rw [if_pos fits]
        exact together.1
    | inr cut =>
        obtain ⟨cause, halted, full⟩ := cut
        have more : limit < (program.observed fuel input none).written.size := full.more
        rw [if_neg (Nat.not_le_of_lt more)]
        rw [full.cause] at halted
        exact ⟨halted, full.written⟩
  · exact Request.frame_after fuel (.run program) rfl

/-! ### An input that has ended -/

/-- An input that ends with a whole line, or is empty. -/
def Input.Complete (input : Input) : Prop :=
  input = [] ∨ input.getLast? = some lineEnd

instance (input : Input) : Decidable input.Complete :=
  inferInstanceAs (Decidable (_ ∨ _))

theorem Input.Complete.of_suffix {input rest : Input} (complete : input.Complete)
    (suffix : rest <:+ input) : rest.Complete := by
  obtain ⟨front, rfl⟩ := suffix
  cases complete with
  | inl empty => exact .inl (List.append_eq_nil_iff.1 empty).2
  | inr ended =>
      rw [List.getLast?_append] at ended
      cases last : rest.getLast? with
      | none => exact .inl (List.getLast?_eq_none_iff.1 last)
      | some byte =>
          rw [last] at ended
          exact .inr (last.trans ended)

/-- What follows whole lines is not needed to take the first of them. -/
theorem Input.splitLine_append {input : Input} (ended : lineEnd ∈ input) (more : Input) :
    splitLine (input ++ more) = ((splitLine input).1, (splitLine input).2 ++ more) := by
  induction input with
  | nil => cases ended
  | cons first rest ih =>
      by_cases last : first = lineEnd
      · simp [splitLine, last]
      · have ended : lineEnd ∈ rest := by simpa [Ne.symm last] using ended
        simpa [splitLine, last] using ih ended

/-- Reading from whole lines gives the same value when more input follows them. -/
theorem Input.readInteger_append {input : Input} (complete : input.Complete)
    (nonempty : input ≠ []) (more : Input) :
    readInteger (input ++ more) = ((readInteger input).1, (readInteger input).2 ++ more) ∧
      Complete (readInteger input).2 := by
  have ended : lineEnd ∈ input := by
    cases complete with
    | inl empty => exact absurd empty nonempty
    | inr last => exact List.mem_of_getLast? last
  have longer : input ++ more ≠ [] := List.append_ne_nil_of_left_ne_nil nonempty more
  simp only [readInteger, nonempty, longer, if_false, splitLine_append ended, true_and]
  exact complete.of_suffix ((List.tail_suffix _).trans (List.dropWhile_suffix _))

/-- The streams of two runs, the second one with more input behind the lines of the first. -/
structure Streams.Followed (more : Input) (short long : Streams) : Prop where
  complete : short.input.Complete
  input : long.input = short.input ++ more
  output : short.output = long.output

variable {more : Input}

/-- The first run has read behind the end of its input. -/
def Streams.Ended (cause : Error) (_ _ : Streams) : Prop :=
  cause = .endOfInput

theorem Streams.Followed.read (followed : Followed more short long) :
    Answers (Followed more) Ended short.read long.read := by
  by_cases empty : short.input = []
  · have failed : short.read.1 = .error .endOfInput := by
      simp only [Streams.read, Input.readInteger, empty, if_true]
    exact .stopped failed rfl
  · obtain ⟨same, complete⟩ := Input.readInteger_append followed.complete empty more
    apply Answers.same
    · simp only [Streams.read, followed.input, same]
    · refine ⟨complete, ?_, followed.output⟩
      simp only [Streams.read, followed.input, same]

theorem Streams.Followed.write (followed : Followed more short long) (text : String) :
    Answers (Followed more) Ended (short.write text) (long.write text) := by
  apply Answers.same
  · simp only [Streams.write, followed.output]
  · refine ⟨followed.complete, followed.input, ?_⟩
    simp only [Streams.write, followed.output]

/-- An input that has ended, as a reason for a run to be cut short. -/
def Truncation.endedInput (more : Input) : Truncation where
  together := Streams.Followed more
  stopped := Streams.Ended
  written followed := congrArg Output.written followed.output
  onward ended _ := ended
  read := Streams.Followed.read
  write := Streams.Followed.write

/-- A run depends only on the lines that it reads: if it never reads behind the end of its input,
the same is seen of it when more input follows. -/
theorem observed_append (fuel : Nat) (program : Program) (input more : Input)
    (capacity : Option Nat) (complete : input.Complete)
    (ended : (program.observed fuel input capacity).halt ≠
      some (.error (.input "unexpected end of input"))) :
    program.observed fuel (input ++ more) capacity = program.observed fuel input capacity := by
  have alike : (Truncation.endedInput more).Alike (.limited input capacity)
      (.limited (input ++ more) capacity) :=
    ⟨rfl, complete, rfl, rfl⟩
  cases ((Truncation.endedInput more).ends_run fuel program alike rfl).seen with
  | inl together => exact together.1.symm
  | inr cut =>
      obtain ⟨cause, halted, rfl⟩ := cut
      exact absurd halted ended

/-- Reads how many numbers follow, and adds these up in calls that read one of them each. -/
def summingProgram : Program where
  globals := ["n", "sum"]
  procedures := [
    { name := "next", params := [], locals := [],
      body := .block [.read "x", .assign "next" (.var "x")] }]
  body := .block [.read "n", .loop ⟨.gt, .var "n", .num 0⟩ (.block [
    .assign "sum" (.binary .add (.var "sum") (.call "next" [])),
    .write (.var "sum"),
    .assign "n" (.binary .sub (.var "n") (.num 1))])]

theorem observed_append_summingProgram :
    Input.Complete [50, 10, 55, 10, 45, 51, 10] ∧
    (summingProgram.observed 4 [50, 10, 55, 10, 45, 51, 10] none).halt ≠
      some (.error (.input "unexpected end of input")) ∧
    summingProgram.observed 4 ([50, 10, 55, 10, 45, 51, 10] ++ [255, 10]) none =
      summingProgram.observed 4 [50, 10, 55, 10, 45, 51, 10] none := by
  have complete : Input.Complete [50, 10, 55, 10, 45, 51, 10] := by decide
  have ended : (summingProgram.observed 4 [50, 10, 55, 10, 45, 51, 10] none).halt ≠
      some (.error (.input "unexpected end of input")) := by
    decide +kernel
  exact ⟨complete, ended, observed_append 4 summingProgram _ [255, 10] none complete ended⟩

end MiniPascal
