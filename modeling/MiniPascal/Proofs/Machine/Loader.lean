import MiniPascal.Assembly.Basic
import MiniPascal.Proofs.Text.Decimal

/-!
# Reading assembly

What a text of assembly means: `Loader.read?` reads its lines. Blanks between operands and empty
lines mean nothing. The text of lines is read as these lines if no name in them holds a character
that separates words or lines.
-/

namespace MiniPascal

namespace Loader

/-- The operands of an instruction, between commas. -/
def operands (text : List Char) : List String :=
  ((text.filter (· ≠ ' ')).splitOn ',').map String.ofList

/-- The operand for the word at a distance from an address. -/
def address? (text : String) : Option (Nat × Register) :=
  match text.toList.dropWhile Char.isDigit with
  | '(' :: base =>
      (Decimal.magnitude? (text.toList.takeWhile Char.isDigit)).map fun offset =>
        (offset, ⟨String.ofList base.dropLast⟩)
  | _ => none

/-- The instruction of a name and operands. -/
def instr? (mnemonic : String) (operands : List String) : Option Instr :=
  match mnemonic, operands with
  | "li", [dest, value] => (Decimal.read? value.toList).map (.li ⟨dest⟩)
  | "la", [dest, label] => some (.la ⟨dest⟩ ⟨label⟩)
  | "lw", [dest, word] => (address? word).map fun (offset, base) => .lw ⟨dest⟩ offset base
  | "sw", [source, word] => (address? word).map fun (offset, base) => .sw ⟨source⟩ offset base
  | "move", [dest, source] => some (.move ⟨dest⟩ ⟨source⟩)
  | "addu", [dest, left, right] => some (.addu ⟨dest⟩ ⟨left⟩ ⟨right⟩)
  | "subu", [dest, left, right] => some (.subu ⟨dest⟩ ⟨left⟩ ⟨right⟩)
  | "addiu", [dest, source, value] => (Decimal.read? value.toList).map (.addiu ⟨dest⟩ ⟨source⟩)
  | "mult", [left, right] => some (.mult ⟨left⟩ ⟨right⟩)
  | "div", [left, right] => some (.div ⟨left⟩ ⟨right⟩)
  | "mflo", [dest] => some (.mflo ⟨dest⟩)
  | "mfhi", [dest] => some (.mfhi ⟨dest⟩)
  | "beq", [left, right, label] => some (.branch .eq ⟨left⟩ ⟨right⟩ ⟨label⟩)
  | "bne", [left, right, label] => some (.branch .ne ⟨left⟩ ⟨right⟩ ⟨label⟩)
  | "blt", [left, right, label] => some (.branch .lt ⟨left⟩ ⟨right⟩ ⟨label⟩)
  | "bgt", [left, right, label] => some (.branch .gt ⟨left⟩ ⟨right⟩ ⟨label⟩)
  | "ble", [left, right, label] => some (.branch .le ⟨left⟩ ⟨right⟩ ⟨label⟩)
  | "bge", [left, right, label] => some (.branch .ge ⟨left⟩ ⟨right⟩ ⟨label⟩)
  | "j", [label] => some (.j ⟨label⟩)
  | "jal", [label] => some (.jal ⟨label⟩)
  | "jr", [source] => some (.jr ⟨source⟩)
  | "syscall", _ => some .syscall
  | _, _ => none

/-- A line that starts with a label. -/
def labelled? (place : Label) : List Char → Option Line
  | [':'] => some (.label place)
  | ':' :: ' ' :: '.' :: 'w' :: 'o' :: 'r' :: 'd' :: ' ' :: value =>
      (Decimal.read? value).map (.word place)
  | ':' :: ' ' :: '.' :: 'a' :: 's' :: 'c' :: 'i' :: 'i' :: 'z' :: ' ' :: '"' :: text =>
      some (.asciiz place (String.ofList text.dropLast))
  | _ => none

/-- A line without its line end. -/
def line? : List Char → Option Line
  | '#' :: ' ' :: text => some (.comment (String.ofList text))
  | '\t' :: '.' :: text => some (.directive (String.ofList ('.' :: text)))
  | '\t' :: text =>
      (instr? (String.ofList (text.takeWhile (· ≠ ' ')))
        (operands (text.dropWhile (· ≠ ' ')))).map Line.instr
  | text => labelled? ⟨String.ofList (text.takeWhile (· ≠ ':'))⟩ (text.dropWhile (· ≠ ':'))

/-- The lines of a text. -/
def read? (text : String) : Option (List Line) :=
  ((text.toList.splitOn '\n').filter (· ≠ [])).mapM line?

/-! ### Plain lines -/

/-- A character that separates neither words nor lines. -/
def plainChar (character : Char) : Bool :=
  character.isAlphanum || character = '$'

/-- A name of such characters. -/
def plainName (name : String) : Bool :=
  name.toList.all plainChar

/-- A text that stays on its line. -/
def oneLine (text : String) : Bool :=
  text.toList.all fun character => character ≠ '\n'

/-- The names that an instruction holds. -/
def names : Instr → List String
  | .li dest _ => [dest.name]
  | .la dest label => [dest.name, label.name]
  | .lw dest _ base => [dest.name, base.name]
  | .sw source _ base => [source.name, base.name]
  | .move dest source => [dest.name, source.name]
  | .addu dest left right => [dest.name, left.name, right.name]
  | .subu dest left right => [dest.name, left.name, right.name]
  | .addiu dest source _ => [dest.name, source.name]
  | .mult left right => [left.name, right.name]
  | .div left right => [left.name, right.name]
  | .mflo dest => [dest.name]
  | .mfhi dest => [dest.name]
  | .branch _ left right label => [left.name, right.name, label.name]
  | .j label => [label.name]
  | .jal label => [label.name]
  | .jr source => [source.name]
  | .syscall => []

/-- A line of which every name and text is plain. -/
def plainLine : Line → Bool
  | .label place => plainName place.name
  | .instr instruction => (names instruction).all plainName
  | .directive text => text.toList.head? = some '.' && oneLine text
  | .comment text => oneLine text
  | .word place _ => plainName place.name
  | .asciiz place text => plainName place.name && oneLine text

/-! ### Reading what was written -/

/-- A text without characters that separate operands or lines. -/
def IsOperand (text : String) : Prop :=
  ∀ character ∈ text.toList, character ≠ ' ' ∧ character ≠ ',' ∧ character ≠ '\n'

theorem isOperand_of_plainName {name : String} (plain : plainName name) : IsOperand name := by
  intro character member
  have kind := List.all_eq_true.1 plain character member
  refine ⟨?_, ?_, ?_⟩ <;>
  · rintro rfl
    revert kind
    decide

theorem isOperand_repr (number : Nat) : IsOperand (Nat.repr number) := by
  intro character member
  have digit := Decimal.isDigit_of_mem_repr member
  refine ⟨?_, ?_, ?_⟩ <;>
  · rintro rfl
    revert digit
    decide

theorem IsOperand.append {first second : String} (one : IsOperand first) (two : IsOperand second) :
    IsOperand (first ++ second) := by
  intro character member
  rw [String.toList_append, List.mem_append] at member
  exact member.elim (one character) (two character)

theorem isOperand_render (value : Int32) : IsOperand (Decimal.render value) := by
  have minus : IsOperand "-" := by simp [IsOperand]
  rw [Decimal.render]
  split
  · exact minus.append (isOperand_repr _)
  · exact isOperand_repr _

theorem isOperand_wordAt {base : Register} (offset : Nat) (plain : plainName base.name) :
    IsOperand (wordAt offset base) := by
  have opening : IsOperand "(" := by simp [IsOperand]
  have closing : IsOperand ")" := by simp [IsOperand]
  exact (((isOperand_repr offset).append opening).append (isOperand_of_plainName plain)).append
    closing

/-- Operands are read from the text that joins them. -/
theorem operands_intercalate {texts : List String} (plain : ∀ text ∈ texts, IsOperand text)
    (some : texts ≠ []) : operands (' ' :: (", ".intercalate texts).toList) = texts := by
  have joined : (", ".intercalate texts).toList.filter (· ≠ ' ') =
      [','].intercalate (texts.map String.toList) := by
    rw [String.toList_intercalate]
    induction texts with
    | nil => rfl
    | cons first rest ih =>
        have kept : first.toList.filter (· ≠ ' ') = first.toList :=
          List.filter_eq_self.2 fun character member => by
            simpa using (plain first List.mem_cons_self character member).1
        cases rest with
        | nil => simpa using kept
        | cons second others =>
            have rest := ih (fun text member => plain text (List.mem_cons_of_mem _ member))
              (List.cons_ne_nil _ _)
            simp only [List.map_cons, List.intercalate_cons_cons] at rest ⊢
            rw [List.filter_append, List.filter_append, kept, rest]
            rfl
  have apart : ∀ text ∈ texts.map String.toList, ',' ∉ text := by
    intro text member comma
    obtain ⟨name, listed, rfl⟩ := List.mem_map.1 member
    exact (plain name listed ',' comma).2.1 rfl
  have dropped : (' ' :: (", ".intercalate texts).toList).filter (· ≠ ' ') =
      (", ".intercalate texts).toList.filter (· ≠ ' ') := rfl
  rw [operands, dropped, joined, List.splitOn_intercalate ',' apart (by simpa using some),
    List.map_map]
  simp

/-- The operand for a word is read as its distance and its base. -/
theorem address?_wordAt (offset : Nat) (base : Register) :
    address? (wordAt offset base) = some (offset, base) := by
  have digits : ∀ character ∈ Nat.toDigits 10 offset, character.isDigit :=
    fun character => Nat.isDigit_of_mem_toDigits (by decide) (by decide)
  have spelled : (wordAt offset base).toList =
      Nat.toDigits 10 offset ++ '(' :: (base.name.toList ++ [')']) := by
    simp [wordAt, Nat.toList_repr]
  rw [address?, spelled, List.takeWhile_append_of_pos digits, List.dropWhile_append_of_pos digits]
  simp [Decimal.magnitude?_toDigits]

/-- The name of an instruction and its operands. -/
def spelling : Instr → String × List String
  | .li dest value => ("li", [dest.name, Decimal.render value])
  | .la dest label => ("la", [dest.name, label.name])
  | .lw dest offset base => ("lw", [dest.name, wordAt offset base])
  | .sw source offset base => ("sw", [source.name, wordAt offset base])
  | .move dest source => ("move", [dest.name, source.name])
  | .addu dest left right => ("addu", [dest.name, left.name, right.name])
  | .subu dest left right => ("subu", [dest.name, left.name, right.name])
  | .addiu dest source value => ("addiu", [dest.name, source.name, Decimal.render value])
  | .mult left right => ("mult", [left.name, right.name])
  | .div left right => ("div", [left.name, right.name])
  | .mflo dest => ("mflo", [dest.name])
  | .mfhi dest => ("mfhi", [dest.name])
  | .branch comparison left right label =>
      (comparison.mnemonic, [left.name, right.name, label.name])
  | .j label => ("j", [label.name])
  | .jal label => ("jal", [label.name])
  | .jr source => ("jr", [source.name])
  | .syscall => ("syscall", [])

theorem render_eq_operation (instruction : Instr) :
    instruction.render = operation (spelling instruction).1 (spelling instruction).2 := by
  cases instruction <;> rfl

theorem instr?_spelling (instruction : Instr) :
    instr? (spelling instruction).1 (spelling instruction).2 = some instruction := by
  cases instruction with
  | li dest value => exact congrArg (Option.map (Instr.li dest)) (Decimal.read?_render value)
  | addiu dest source value =>
      exact congrArg (Option.map (Instr.addiu dest source)) (Decimal.read?_render value)
  | lw dest offset base =>
      exact congrArg (Option.map fun (offset, base) => Instr.lw dest offset base)
        (address?_wordAt offset base)
  | sw source offset base =>
      exact congrArg (Option.map fun (offset, base) => Instr.sw source offset base)
        (address?_wordAt offset base)
  | branch comparison left right label => cases comparison <;> rfl
  | _ => rfl

/-- The names of instructions are words of small letters. -/
theorem isLower_of_mem_mnemonic (instruction : Instr) :
    (spelling instruction).1 ≠ "" ∧ ∀ character ∈ (spelling instruction).1.toList,
      character.isLower := by
  cases instruction with
  | branch comparison left right label =>
      simp only [spelling, ← List.all_eq_true]
      cases comparison <;> decide
  | _ =>
      simp only [spelling, ← List.all_eq_true]
      decide

theorem isOperand_spelling {instruction : Instr} (plain : (names instruction).all plainName) :
    ∀ text ∈ (spelling instruction).2, IsOperand text := by
  cases instruction with
  | li dest value => simp_all [names, spelling, isOperand_of_plainName, isOperand_render]
  | addiu dest source value => simp_all [names, spelling, isOperand_of_plainName, isOperand_render]
  | lw dest offset base => simp_all [names, spelling, isOperand_of_plainName, isOperand_wordAt]
  | sw source offset base => simp_all [names, spelling, isOperand_of_plainName, isOperand_wordAt]
  | _ => simp_all [names, spelling, isOperand_of_plainName]

/-- A line with an instruction is read as its name and what stands behind the first blank. -/
theorem line?_tab {mnemonic : String} {behind : List Char} (nonempty : mnemonic ≠ "")
    (letters : ∀ character ∈ mnemonic.toList, character.isLower)
    (parted : behind.takeWhile (· ≠ ' ') = []) :
    line? ('\t' :: (mnemonic.toList ++ behind)) =
      (instr? mnemonic (operands behind)).map Line.instr := by
  have solid : ∀ character ∈ mnemonic.toList, (character ≠ ' ' : Bool) = true := by
    intro character member
    have letter := letters character member
    simp only [decide_eq_true_eq]
    rintro rfl
    cases letter
  have front : (mnemonic.toList ++ behind).takeWhile (· ≠ ' ') = mnemonic.toList := by
    rw [List.takeWhile_append_of_pos solid, parted, List.append_nil]
  have back : (mnemonic.toList ++ behind).dropWhile (· ≠ ' ') = behind := by
    rw [List.dropWhile_append_of_pos solid]
    have whole :=
      List.takeWhile_append_dropWhile (p := fun c : Char => decide (c ≠ ' ')) (l := behind)
    rwa [parted, List.nil_append] at whole
  have plain : line? ('\t' :: (mnemonic.toList ++ behind)) =
      (instr? (String.ofList ((mnemonic.toList ++ behind).takeWhile (· ≠ ' ')))
        (operands ((mnemonic.toList ++ behind).dropWhile (· ≠ ' ')))).map Line.instr := by
    cases spelled : mnemonic.toList with
    | nil => exact absurd (String.toList_eq_nil_iff.1 spelled) nonempty
    | cons first rest =>
        have letter := letters first (spelled ▸ List.mem_cons_self)
        rw [List.cons_append, line?]
        rintro text same
        cases same
        cases letter
  rw [plain, front, back, String.ofList_toList]

/-- An instruction is read from its text. -/
theorem line?_instr {instruction : Instr} (plain : (names instruction).all plainName) :
    line? ('\t' :: instruction.render.toList) = some (.instr instruction) := by
  obtain ⟨nonempty, letters⟩ := isLower_of_mem_mnemonic instruction
  have operand := isOperand_spelling plain
  rw [render_eq_operation]
  cases texts : (spelling instruction).2 with
  | nil =>
      have syscall : instruction = .syscall := by
        cases instruction with
        | syscall => rfl
        | _ => cases texts
      subst syscall
      rfl
  | cons first rest =>
      have spelled : (operation (spelling instruction).1 (first :: rest)).toList =
          (spelling instruction).1.toList ++ ' ' :: (", ".intercalate (first :: rest)).toList := by
        simp [operation]
      rw [spelled, line?_tab nonempty letters (by simp), ← texts,
        operands_intercalate operand (by rw [texts]; exact List.cons_ne_nil _ _), instr?_spelling]
      rfl

/-- A line of plain characters that starts with a label is read as its name and what stands behind
the first colon. -/
theorem line?_labelled {name : String} {behind : List Char} (plain : plainName name) :
    line? (name.toList ++ ':' :: behind) = labelled? ⟨name⟩ (':' :: behind) := by
  have solid : ∀ character ∈ name.toList, (character ≠ ':' : Bool) = true := by
    intro character member
    have kind := List.all_eq_true.1 plain character member
    simp only [decide_eq_true_eq]
    rintro rfl
    revert kind
    decide
  have split : line? (name.toList ++ ':' :: behind) =
      labelled? ⟨String.ofList ((name.toList ++ ':' :: behind).takeWhile (· ≠ ':'))⟩
        ((name.toList ++ ':' :: behind).dropWhile (· ≠ ':')) := by
    cases spelled : name.toList with
    | nil => rfl
    | cons first rest =>
        have kind := List.all_eq_true.1 plain first (spelled ▸ List.mem_cons_self)
        rw [List.cons_append, line?]
        all_goals
          intro text same
          rw [(List.cons.inj same).1] at kind
          revert kind
          decide
  rw [split, List.takeWhile_append_of_pos solid, List.dropWhile_append_of_pos solid]
  simp

theorem newLine_notMem_of_isOperand {text : String} (operand : IsOperand text) :
    '\n' ∉ text.toList :=
  fun member => (operand '\n' member).2.2 rfl

theorem newLine_notMem_of_oneLine {text : String} (single : oneLine text) : '\n' ∉ text.toList :=
  fun member => by simpa using List.all_eq_true.1 single '\n' member

theorem newLine_notMem_intercalate {texts : List String} (plain : ∀ text ∈ texts, IsOperand text) :
    '\n' ∉ (", ".intercalate texts).toList := by
  rw [String.toList_intercalate]
  induction texts with
  | nil => simp
  | cons first rest ih =>
      have one := newLine_notMem_of_isOperand (plain first List.mem_cons_self)
      have others := ih fun text member => plain text (List.mem_cons_of_mem _ member)
      cases rest with
      | nil => simpa using one
      | cons second rest =>
          simp only [List.map_cons, List.intercalate_cons_cons] at others ⊢
          simpa using ⟨one, others⟩

theorem newLine_notMem_instr {instruction : Instr} (plain : (names instruction).all plainName) :
    '\n' ∉ instruction.render.toList := by
  have letters := (isLower_of_mem_mnemonic instruction).2
  have name : '\n' ∉ (spelling instruction).1.toList := fun member => by
    simpa using letters '\n' member
  have operand := isOperand_spelling plain
  rw [render_eq_operation]
  cases texts : (spelling instruction).2 with
  | nil => exact name
  | cons first rest =>
      have joined := newLine_notMem_intercalate (texts ▸ operand)
      simp only [operation, String.toList_append, List.mem_append, not_or]
      exact ⟨⟨name, by decide⟩, joined⟩

/-- What a line is read from: its text up to the line end. -/
theorem line?_render {line : Line} (plain : plainLine line) :
    ∃ body, line.render.toList = body ++ ['\n'] ∧ body ≠ [] ∧ '\n' ∉ body ∧
      line? body = some line := by
  cases line with
  | label place =>
      refine ⟨place.name.toList ++ [':'], by simp [Line.render], by simp, ?_, line?_labelled plain⟩
      simpa using newLine_notMem_of_isOperand (isOperand_of_plainName plain)
  | instr instruction =>
      refine ⟨'\t' :: instruction.render.toList, by simp [Line.render], by simp, ?_,
        line?_instr plain⟩
      simpa using newLine_notMem_instr plain
  | directive text =>
      simp only [plainLine, Bool.and_eq_true, decide_eq_true_eq] at plain
      obtain ⟨rest, spelled⟩ := List.head?_eq_some_iff.1 plain.1
      refine ⟨'\t' :: text.toList, by simp [Line.render], by simp, ?_, ?_⟩
      · simpa using newLine_notMem_of_oneLine plain.2
      · rw [spelled, line?, ← spelled, String.ofList_toList]
  | comment text =>
      refine ⟨'#' :: ' ' :: text.toList, by simp [Line.render], by simp, ?_, ?_⟩
      · simpa using newLine_notMem_of_oneLine plain
      · rw [line?, String.ofList_toList]
  | word place value =>
      refine ⟨place.name.toList ++ ':' :: (" .word ".toList ++ (Decimal.render value).toList),
        by simp [Line.render], by simp, ?_, ?_⟩
      · have name := newLine_notMem_of_isOperand (isOperand_of_plainName plain)
        have digits := newLine_notMem_of_isOperand (isOperand_render value)
        simp [name, digits]
      · rw [line?_labelled plain]
        exact congrArg (Option.map (Line.word place)) (Decimal.read?_render value)
  | asciiz place text =>
      simp only [plainLine, Bool.and_eq_true] at plain
      refine ⟨place.name.toList ++ ':' :: (" .asciiz \"".toList ++ (text.toList ++ ['"'])),
        by simp [Line.render], by simp, ?_, ?_⟩
      · have name := newLine_notMem_of_isOperand (isOperand_of_plainName plain.1)
        have content := newLine_notMem_of_oneLine plain.2
        simp [name, content]
      · rw [line?_labelled plain.1]
        change some (Line.asciiz ⟨place.name⟩ (String.ofList (text.toList ++ ['"']).dropLast)) = _
        simp

/-- The first line of a text is split off at its line end. -/
theorem splitOn_renderAll_cons {line : Line} {rest : List Line} {body : List Char}
    (spelled : line.render.toList = body ++ ['\n']) (single : '\n' ∉ body) :
    (Line.renderAll (line :: rest)).toList.splitOn '\n' =
      body :: (Line.renderAll rest).toList.splitOn '\n' := by
  have joined : (Line.renderAll (line :: rest)).toList =
      body ++ '\n' :: (Line.renderAll rest).toList := by
    simp [Line.renderAll, String.toList_join, spelled]
  rw [joined, List.splitOn, List.splitOnP_append_cons _ _ (by simp)]
  exact congrArg (· ++ _) (List.splitOn_eq_singleton single)

/-- The lines of a text are read from it. -/
theorem read?_renderAll {lines : List Line} (plain : ∀ line ∈ lines, plainLine line) :
    read? (Line.renderAll lines) = some lines := by
  induction lines with
  | nil => rfl
  | cons line rest ih =>
      obtain ⟨body, spelled, nonempty, single, read⟩ := line?_render (plain line List.mem_cons_self)
      have others := ih fun line member => plain line (List.mem_cons_of_mem _ member)
      rw [read?] at others ⊢
      rw [splitOn_renderAll_cons spelled single, List.filter_cons_of_pos (by simpa using nonempty),
        List.mapM_cons, read, others]
      rfl

end Loader

end MiniPascal
