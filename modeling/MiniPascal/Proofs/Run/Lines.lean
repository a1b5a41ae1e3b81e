import MiniPascal.Proofs.Run.Basic
import MiniPascal.Proofs.Token.Spelling

/-!
# Numbers on lines

What is written can be read back. A value is written on a line of its own, in characters other than
blanks, so reading finds the same lines and on each of them the text of the value, even if there are
more blanks around it. The line end is the only character whose code has the byte of the line end.
-/

namespace MiniPascal

open Interpreter (execute)

/-! ### Texts as bytes -/

namespace Input

/-- The bytes of a text. -/
def ofText (text : String) : Input :=
  text.toByteArray.data.toList

theorem ofText_append (first second : String) :
    ofText (first ++ second) = ofText first ++ ofText second := by
  simp [ofText]

theorem ofText_eq_flatMap (text : String) :
    ofText text = text.toList.flatMap String.utf8EncodeChar := by
  rw [ofText, ← String.ofList_toList (s := text), String.toByteArray_ofList]
  simp [List.utf8Encode]

/-- All bytes of a code that is longer than one byte are above 127. -/
theorem le_toNat_of_mem_utf8EncodeChar {character : Char} {byte : UInt8}
    (long : ¬character.val.toNat ≤ 0x7f) (member : byte ∈ String.utf8EncodeChar character) :
    128 ≤ byte.toNat := by
  have high {part base : Nat} (above : 128 ≤ base) (below : part + base < 256)
      (same : byte = UInt8.ofNat (part + base)) : 128 ≤ byte.toNat := by
    rw [same, UInt8.toNat_ofNat_of_lt' below]
    exact Nat.le_add_left_of_le above
  simp only [String.utf8EncodeChar, if_neg long] at member
  split at member
  · simp only [List.mem_cons, List.not_mem_nil, or_false] at member
    rcases member with first | second
    · exact high (by decide) (by omega) first
    · exact high (by decide) (by omega) second
  · split at member
    · simp only [List.mem_cons, List.not_mem_nil, or_false] at member
      rcases member with first | second | third
      · exact high (by decide) (by omega) first
      · exact high (by decide) (by omega) second
      · exact high (by decide) (by omega) third
    · simp only [List.mem_cons, List.not_mem_nil, or_false] at member
      rcases member with first | second | third | fourth
      · exact high (by decide) (by omega) first
      · exact high (by decide) (by omega) second
      · exact high (by decide) (by omega) third
      · exact high (by decide) (by omega) fourth

/-- A character has the byte of the line end in its code only if it is the line end. -/
theorem eq_newLine_of_lineEnd_mem {character : Char}
    (member : lineEnd ∈ String.utf8EncodeChar character) : character = '\n' := by
  by_cases short : character.val.toNat ≤ 0x7f
  · simp only [String.utf8EncodeChar, if_pos short, List.mem_singleton] at member
    have code : 10 = character.val.toNat % 256 := congrArg UInt8.toNat member
    apply Char.toNat_inj.1
    change character.val.toNat = 10
    omega
  · have high := le_toNat_of_mem_utf8EncodeChar short member
    exact absurd high (by decide)

theorem lineEnd_notMem_ofText {text : String} (single : '\n' ∉ text.toList) :
    lineEnd ∉ ofText text := by
  rw [ofText_eq_flatMap, List.mem_flatMap]
  rintro ⟨character, member, coded⟩
  exact single (eq_newLine_of_lineEnd_mem coded ▸ member)

theorem fromUTF8?_ofText (text : String) :
    String.fromUTF8? ⟨(ofText text).toArray⟩ = some text := by
  have valid : text.toByteArray.IsValidUTF8 := text.isValidUTF8
  have same : (⟨(ofText text).toArray⟩ : ByteArray) = text.toByteArray := rfl
  rw [same, String.fromUTF8?, dif_pos valid]
  rfl

/-- A line ends at the first line end. -/
theorem splitLine_line {line : List UInt8} (single : lineEnd ∉ line) (rest : Input) :
    splitLine (line ++ lineEnd :: rest) = (line, rest) := by
  have inside : line.all (· ≠ lineEnd) := by
    rw [List.all_eq_true]
    intro byte member
    have other : byte ≠ lineEnd := fun same => single (same ▸ member)
    simpa using other
  have ends : (lineEnd :: rest).head?.any (· ≠ lineEnd) = false := by simp
  obtain ⟨taken, dropped⟩ := Lexer.takeWhile_dropWhile_append inside ends
  rw [splitLine, taken, dropped, List.tail_cons]

end Input

/-- The blanks around a text are taken away, if there are none in it. -/
theorem trim_padded {front text back : List Char}
    (blanks : ∀ character ∈ front ++ back, Text.isBlank character = true)
    (visible : ∀ character ∈ text, Text.isBlank character = false) (nonempty : text ≠ []) :
    Text.trim (front ++ text ++ back) = text := by
  have stops {text : List Char} (visible : ∀ character ∈ text, Text.isBlank character = false)
      (nonempty : text ≠ []) (rest : List Char) :
      (text ++ rest).head?.any Text.isBlank = false := by
    obtain ⟨first, others, rfl⟩ := List.exists_cons_of_ne_nil nonempty
    exact visible first List.mem_cons_self
  have before : front.all Text.isBlank := by
    rw [List.all_eq_true]
    intro character member
    exact blanks character (List.mem_append_left _ member)
  have behind : back.reverse.all Text.isBlank := by
    rw [List.all_eq_true]
    intro character member
    exact blanks character (List.mem_append_right _ (List.mem_reverse.1 member))
  have visible' : ∀ character ∈ text.reverse, Text.isBlank character = false := by
    intro character member
    exact visible character (List.mem_reverse.1 member)
  have nonempty' : text.reverse ≠ [] := by simpa using nonempty
  have ends := stops visible' nonempty' []
  rw [List.append_nil] at ends
  rw [Text.trim, List.append_assoc,
    (Lexer.takeWhile_dropWhile_append before (stops visible nonempty back)).2, List.reverse_append,
    (Lexer.takeWhile_dropWhile_append behind ends).2, List.reverse_reverse]

/-- No character of a written value is blank. -/
theorem isBlank_of_mem_render {value : Int32} {character : Char}
    (member : character ∈ (Decimal.render value).toList) : Text.isBlank character = false := by
  cases Decimal.eq_minus_or_isDigit_of_mem_render member with
  | inl minus =>
      subst minus
      decide
  | inr digit => exact Lexer.isBlank_of_isAlphanum (by simp [Char.isAlphanum, digit])

/-! ### Reading numbers -/

/-- The characters with the Unicode property White_Space. -/
def whiteSpace : List Char :=
  ['\t', '\n', '\u000b', '\u000c', '\r', ' ', '\u0085', '\u00a0', '\u1680', '\u2000', '\u2001',
    '\u2002', '\u2003', '\u2004', '\u2005', '\u2006', '\u2007', '\u2008', '\u2009', '\u200a',
    '\u2028', '\u2029', '\u202f', '\u205f', '\u3000']

theorem isBlank_of_mem_whiteSpace {character : Char} (member : character ∈ whiteSpace) :
    Text.isBlank character = true := by
  have all : whiteSpace.all Text.isBlank := by decide
  exact List.all_eq_true.1 all character member

/-- A value on a line, between blanks. -/
structure PaddedNumber where
  front : List Char
  value : Int32
  back : List Char
  blanks : ∀ character ∈ front ++ back, character ∈ whiteSpace ∧ character ≠ '\n'

namespace PaddedNumber

/-- A value without blanks around it. -/
def bare (value : Int32) : PaddedNumber where
  front := []
  value := value
  back := []
  blanks := nofun

/-- The text of the line without its line end. -/
def text (number : PaddedNumber) : String :=
  String.ofList number.front ++ Decimal.render number.value ++ String.ofList number.back

/-- The bytes of the line. -/
def line (number : PaddedNumber) : Input :=
  Input.ofText (number.text ++ "\n")

theorem toList_text (number : PaddedNumber) :
    number.text.toList = number.front ++ (Decimal.render number.value).toList ++ number.back := by
  simp [text]

theorem newLine_notMem_text (number : PaddedNumber) : '\n' ∉ number.text.toList := by
  rw [toList_text, List.append_assoc, List.mem_append, List.mem_append]
  rintro (before | inside | behind)
  · exact (number.blanks _ (List.mem_append_left _ before)).2 rfl
  · have visible := isBlank_of_mem_render inside
    exact absurd visible (by decide)
  · exact (number.blanks _ (List.mem_append_right _ behind)).2 rfl

theorem parseLine_text (number : PaddedNumber) :
    Input.parseLine (Input.ofText number.text) = .ok number.value := by
  have trimmed : Text.trim number.text.toList = (Decimal.render number.value).toList := by
    rw [toList_text]
    apply trim_padded
    · intro character member
      exact isBlank_of_mem_whiteSpace (number.blanks character member).1
    · intro character member
      exact isBlank_of_mem_render member
    · exact Decimal.render_ne_empty number.value
  simp only [Input.parseLine, Input.fromUTF8?_ofText, trimmed, Decimal.read?_render]

/-- Reading takes the value from the line and leaves what follows it. -/
theorem readInteger_line (number : PaddedNumber) (rest : Input) :
    Input.readInteger (number.line ++ rest) = (.ok number.value, rest) := by
  have split : number.line ++ rest = Input.ofText number.text ++ Input.lineEnd :: rest := by
    rw [line, Input.ofText_append, List.append_assoc]
    rfl
  have nonempty : Input.ofText number.text ++ Input.lineEnd :: rest ≠ [] := by simp
  have line := Input.splitLine_line (Input.lineEnd_notMem_ofText number.newLine_notMem_text) rest
  rw [split, Input.readInteger, if_neg nonempty, line, parseLine_text]

end PaddedNumber

/-- The bytes of numbers on lines. -/
def Input.ofNumbers (numbers : List PaddedNumber) : Input :=
  numbers.flatMap PaddedNumber.line

/-- The bytes of values on lines, without blanks around them. -/
def Input.ofValues (values : List Int32) : Input :=
  ofNumbers (values.map .bare)

theorem execute_read_line (fuel : Nat) (name : String) (number : PaddedNumber) (rest : Input)
    (reader : Interpreter) :
    execute fuel (.read name) { reader with input := number.line ++ rest } =
      .ok () { reader with
        input := rest, environment := reader.environment.declare name number.value } := by
  rw [execute, Interpreter.executeWith]
  simp only [bind, EStateM.bind, readInteger_eq, number.readInteger_line]
  rfl

theorem execute_read_end (fuel : Nat) (name : String) {reader : Interpreter}
    (ended : reader.input = []) :
    execute fuel (.read name) reader = .error (.error .endOfInput) reader := by
  rw [execute, Interpreter.executeWith]
  simp only [bind, EStateM.bind, readInteger_eq, Input.readInteger, ended, if_true]
  rw [← ended]

/-! ### Writing numbers -/

/-- The output takes so many bytes more. -/
def Output.HasRoom (output : Output) (count : Nat) : Prop :=
  ∀ capacity ∈ output.capacity, output.written.size + count ≤ capacity

instance (output : Output) (count : Nat) : Decidable (output.HasRoom count) :=
  inferInstanceAs (Decidable (∀ capacity ∈ output.capacity, _))

/-- The output with more bytes behind those written so far. -/
def Output.append (output : Output) (bytes : Input) : Output :=
  { output with written := output.written ++ bytes.toArray }

theorem Output.append_append (output : Output) (first second : Input) :
    (output.append first).append second = output.append (first ++ second) := by
  simp [Output.append]

theorem Output.HasRoom.split {output : Output} {first second : Input}
    (room : output.HasRoom (first ++ second).length) :
    output.HasRoom first.length ∧ (output.append first).HasRoom second.length := by
  rw [List.length_append] at room
  constructor
  · intro capacity limit
    have fits := room capacity limit
    omega
  · intro capacity limit
    have fits := room capacity limit
    simp only [Output.append, Array.size_append, List.size_toArray]
    omega

theorem write_of_hasRoom {output : Output} {text : String}
    (room : output.HasRoom (Input.ofText text).length) :
    output.write text = (.ok (), output.append (Input.ofText text)) := by
  cases limit : output.capacity with
  | none => simp only [Output.write, limit, Output.append, Input.ofText]
  | some capacity =>
      have fits := room capacity limit
      have enough : text.toByteArray.data.size ≤ capacity - output.written.size := by
        rw [Input.ofText, Array.length_toList] at fits
        omega
      simp only [Output.write, limit, if_pos enough, Output.append, Input.ofText]

theorem PaddedNumber.line_bare (value : Int32) :
    (bare value).line = Input.ofText (Decimal.render value ++ "\n") := by
  simp [line, text, bare]

theorem execute_write_num (fuel : Nat) {value : Int32} {writer : Interpreter}
    (room : writer.output.HasRoom (PaddedNumber.bare value).line.length) :
    execute fuel (.write (.num value)) writer =
      .ok () { writer with output := writer.output.append (PaddedNumber.bare value).line } := by
  rw [PaddedNumber.line_bare] at room ⊢
  rw [execute, Interpreter.executeWith, Interpreter.evaluateWith, pure_bind, Interpreter.writeLine,
    attempt_eq, write_of_hasRoom room]

/-- Writing values writes their lines, one after another. -/
theorem forM_write (fuel : Nat) {values : List Int32} {writer : Interpreter}
    (room : writer.output.HasRoom (Input.ofValues values).length) :
    (values.forM fun value => execute fuel (.write (.num value))) writer =
      .ok () { writer with output := writer.output.append (Input.ofValues values) } := by
  induction values generalizing writer with
  | nil => simp [Input.ofValues, Input.ofNumbers, Output.append, pure, EStateM.pure]
  | cons value values ih =>
      have joined : Input.ofValues (value :: values) =
          (PaddedNumber.bare value).line ++ Input.ofValues values := rfl
      rw [joined] at room ⊢
      obtain ⟨now, later⟩ := room.split
      simp only [List.forM_eq_forM, List.forM_cons, bind, EStateM.bind, execute_write_num fuel now]
      rw [← Output.append_append]
      exact ih later

/-! ### Reading what was written -/

/-- The scope in which a name is bound: that of the call, if there is one, or else the globals. -/
def Environment.current (environment : Environment) : Scope :=
  environment.frame.getD environment.globals

/-- Another environment differs in what the current scope has for one name, which is a value now.
So the name is found with this value, and every other name as before. -/
structure Environment.Binds (before : Environment) (name : String) (value : Int32)
    (after : Environment) : Prop where
  bound : after.current[name]? = some value
  others : ∀ other, other ≠ name → after.current[other]? = before.current[other]?
  found : after.lookup? name = some value
  kept : ∀ other, other ≠ name → after.lookup? other = before.lookup? other
  inCall : after.frame.isSome = before.frame.isSome
  globals : before.frame.isSome → after.globals = before.globals
  procedures : after.procedures = before.procedures

theorem Environment.binds_declare (environment : Environment) (name : String) (value : Int32) :
    environment.Binds name value (environment.declare name value) := by
  have found (other : String) := lookup?_declare environment name other value
  rcases environment with ⟨globals, frame, procedures⟩
  constructor
  · cases frame <;> simp [declare, current]
  · intro other different
    cases frame <;> simp [declare, current, Ne.symm different]
  · rw [found, if_pos rfl]
  · intro other different
    rw [found, if_neg (Ne.symm different)]
  · cases frame <;> rfl
  · intro called
    cases frame with
    | none => cases called
    | some scope => rfl
  · cases frame <;> rfl

/-- One execution of `READLN` after another binds its name to the next value in the current scope
and does nothing else but to use up input. When there is no value left, the next one finds the input
at its end. -/
def ReadsBack (fuel : Nat) (reader : Interpreter) : List Int32 → Prop
  | [] => ∀ name, execute fuel (.read name) reader =
      .error (.error (.input "unexpected end of input")) reader
  | value :: values => ∀ name, ∃ input environment,
      let after : Interpreter := { reader with input, environment }
      execute fuel (.read name) reader = .ok () after ∧
        reader.environment.Binds name value environment ∧ ReadsBack fuel after values

theorem readsBack_ofNumbers (fuel : Nat) (numbers : List PaddedNumber) (reader : Interpreter) :
    ReadsBack fuel { reader with input := Input.ofNumbers numbers }
      (numbers.map PaddedNumber.value) := by
  -- The induction is on the lines. Each of them leaves a reader with other bindings.
  induction numbers generalizing reader with
  | nil =>
      intro name
      exact execute_read_end fuel name rfl
  | cons number numbers ih =>
      intro name
      refine ⟨Input.ofNumbers numbers, reader.environment.declare name number.value, ?_, ?_, ?_⟩
      · exact execute_read_line fuel name number (Input.ofNumbers numbers) reader
      · exact reader.environment.binds_declare name number.value
      · exact ih { reader with environment := reader.environment.declare name number.value }

/-- `READLN` undoes `WRITELN`. An output with room for them takes a line for each value, and from
these lines the values are read back in order, before the input is at its end. This is also so if
there are other blanks than line ends around the numbers. -/
theorem written_reads_back (fuel : Nat) (values : List Int32) :
    (∀ writer : Interpreter, writer.output.HasRoom (Input.ofValues values).length →
      (values.forM fun value => execute fuel (.write (.num value))) writer =
        .ok () { writer with output := writer.output.append (Input.ofValues values) }) ∧
    (∀ reader : Interpreter,
      ReadsBack fuel { reader with input := Input.ofValues values } values) ∧
    ∀ (numbers : List PaddedNumber) (reader : Interpreter),
      numbers.map PaddedNumber.value = values →
        ReadsBack fuel { reader with input := Input.ofNumbers numbers } values := by
  have plain : (values.map PaddedNumber.bare).map PaddedNumber.value = values := by
    rw [List.map_map]
    exact List.map_id values
  have reads (numbers : List PaddedNumber) (reader : Interpreter)
      (same : numbers.map PaddedNumber.value = values) :
      ReadsBack fuel { reader with input := Input.ofNumbers numbers } values :=
    same ▸ readsBack_ofNumbers fuel numbers reader
  exact ⟨fun writer => forM_write fuel, fun reader => reads _ reader plain, reads⟩

/-- The least value and another one, between blanks of one, two and three bytes. -/
def paddedSample : List PaddedNumber :=
  [{ front := ['\t', '\u3000']
     value := Int32.minValue
     back := ['\r']
     blanks := by simp [whiteSpace] },
    { front := []
      value := 7
      back := ['\u0085', ' ', '\u2028']
      blanks := by simp [whiteSpace] }]

/-- An interpreter whose output takes just the lines of these values. -/
def sampleWriter : Interpreter where
  output := { capacity := some 14 }

theorem written_reads_back_paddedSample :
    (sampleWriter.output.HasRoom (Input.ofValues [Int32.minValue, 7]).length ∧
      paddedSample.map PaddedNumber.value = [Int32.minValue, 7]) ∧
    ([Int32.minValue, 7].forM fun value => execute 0 (.write (.num value))) sampleWriter =
      .ok () { sampleWriter with
        output := sampleWriter.output.append (Input.ofValues [Int32.minValue, 7]) } ∧
    ReadsBack 0 { input := Input.ofNumbers paddedSample } [Int32.minValue, 7] := by
  have room : sampleWriter.output.HasRoom (Input.ofValues [Int32.minValue, 7]).length := by
    decide +kernel
  have same : paddedSample.map PaddedNumber.value = [Int32.minValue, 7] := rfl
  obtain ⟨writes, -, reads⟩ := written_reads_back 0 [Int32.minValue, 7]
  exact ⟨⟨room, same⟩, writes sampleWriter room, reads paddedSample {} same⟩

end MiniPascal
