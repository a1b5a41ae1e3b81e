import MiniPascal.Proofs.Token.Spelling

/-!
# Texts as words between gaps

A source text is a sequence of words with gaps around them: `Tokenised` says so in terms of
characters alone, with what each word spells, where it has to end and on which line it stands. The
tokens of a text are those of its words, and a text that is no such sequence has none.
-/

namespace MiniPascal

/-! ### Gaps -/

/-- A text that is empty or starts with a line end. -/
def AtLineEnd (text : List Char) : Prop :=
  text = [] ∨ text.head? = some '\n'

/-- A gap in front of the text `after`: blanks, comments from `//` to the end of the line, and
comments from `(*` to the first `*)` behind it. -/
inductive IsGap : List Char → List Char → Prop where
  | empty {after : List Char} : IsGap [] after
  | blank {character : Char} {gap after : List Char} :
      Text.isBlank character = true → IsGap gap after → IsGap (character :: gap) after
  | lineComment {body gap after : List Char} :
      '\n' ∉ body → AtLineEnd (gap ++ after) → IsGap gap after →
      IsGap ('/' :: '/' :: (body ++ gap)) after
  | blockComment {body gap after : List Char} :
      ¬['*', ')'] <:+: body → IsGap gap after →
      IsGap ('(' :: '*' :: (body ++ '*' :: ')' :: gap)) after

theorem lineAfter_add_count (character : Char) (text : List Char) (line : Nat) :
    lineAfter character line + text.count '\n' = line + (character :: text).count '\n' := by
  by_cases newline : character = '\n'
  · simp only [lineAfter, newline, if_true, List.count_cons_self]
    omega
  · simp [lineAfter, newline]

namespace Gap

variable {body text rest : List Char} {character : Char} {line line' : Nat}

theorem skip_of_isBlank (isBlank : Text.isBlank character = true) :
    Gap.blank.skip (character :: text) line = Gap.blank.skip text (lineAfter character line) := by
  have noSlash : character ≠ '/' := by
    rintro rfl
    exact absurd isBlank (by decide)
  have noParen : character ≠ '(' := by
    rintro rfl
    exact absurd isBlank (by decide)
  simp [Gap.skip, noSlash, noParen, isBlank]

/-- A line comment is skipped up to the end of its line. -/
theorem skip_lineComment (oneLine : '\n' ∉ body) (ended : AtLineEnd text) :
    Gap.lineComment.skip (body ++ text) line = Gap.blank.skip text line := by
  induction body with
  | nil =>
      rcases ended with rfl | newline
      · rfl
      · obtain ⟨rest, rfl⟩ := List.head?_eq_some_iff.mp newline
        rw [skip_of_isBlank (by decide)]
        rfl
  | cons character body ih =>
      rw [List.mem_cons, not_or] at oneLine
      rw [List.cons_append, Gap.skip, if_neg (Ne.symm oneLine.1)]
      exact ih oneLine.2

/-- A block comment is skipped up to the first mark that closes it. -/
theorem skip_blockComment {start : Nat} (unclosed : ¬['*', ')'] <:+: body) :
    (Gap.blockComment start).skip (body ++ '*' :: ')' :: text) line =
      Gap.blank.skip text (line + body.count '\n') := by
  induction body generalizing line with
  | nil => rfl
  | cons character body ih =>
      rw [List.infix_cons_iff, not_or] at unclosed
      have goesOn : ∀ rest, character = '*' → body ++ '*' :: ')' :: text = ')' :: rest → False := by
        rintro rest rfl closed
        cases body with
        | nil => simp at closed
        | cons next body =>
            simp only [List.cons_append, List.cons.injEq] at closed
            apply unclosed.1
            simp [closed.1]
      rw [List.cons_append, Gap.skip, ih unclosed.2, lineAfter_add_count]
      exact goesOn

/-- A gap is skipped, and its line ends are counted. -/
theorem skip_gap {gap after : List Char} (isGap : IsGap gap after) :
    Gap.blank.skip (gap ++ after) line = Gap.blank.skip after (line + gap.count '\n') := by
  induction isGap generalizing line with
  | empty => rfl
  | blank isBlank _ ih =>
      rw [List.cons_append, skip_of_isBlank isBlank, ih, lineAfter_add_count]
  | @lineComment body gap after oneLine ended _ ih =>
      have none : body.count '\n' = 0 := List.count_eq_zero.mpr oneLine
      simp only [List.cons_append, List.append_assoc]
      rw [Gap.skip, skip_lineComment oneLine ended, ih]
      simp [none]
  | @blockComment body gap after unclosed _ ih =>
      simp only [List.cons_append, List.append_assoc]
      rw [Gap.skip, skip_blockComment unclosed, ih]
      simp [Nat.add_assoc]

/-- A text that starts with no gap. -/
structure Visible (text : List Char) : Prop where
  blank : text.head?.any Text.isBlank = false
  lineComment : ¬['/', '/'] <+: text
  blockComment : ¬['(', '*'] <+: text

/-- The text up to the end of a gap, of which some may be behind already. -/
def Spans : Gap → List Char → List Char → Prop
  | .blank, span, after => IsGap span after
  | .lineComment, span, after => ∃ body gap, span = body ++ gap ∧ '\n' ∉ body ∧
      AtLineEnd (gap ++ after) ∧ IsGap gap after
  | .blockComment _, span, after => ∃ body gap, span = body ++ '*' :: ')' :: gap ∧
      ¬['*', ')'] <:+: body ∧ IsGap gap after

/-- What is skipped is a gap, and no gap follows it. -/
theorem exists_spans {gap : Gap} (ended : gap.skip text line = .text rest line') :
    ∃ span, text = span ++ rest ∧ gap.Spans span rest ∧ line' = line + span.count '\n' ∧
      Visible rest := by
  fun_induction Gap.skip gap text line with
  | case1 => cases ended
  | case2 gap line notBlock =>
      cases ended
      refine ⟨[], rfl, ?_, rfl, rfl, by simp, by simp⟩
      cases gap with
      | blank => exact .empty
      | lineComment => exact ⟨[], [], rfl, by simp, .inl rfl, .empty⟩
      | blockComment start => exact absurd rfl (notBlock start)
  | case3 text line ih =>
      obtain ⟨span, rfl, spans, lines, visible⟩ := ih ended
      obtain ⟨body, gap, rfl, oneLine, atEnd, isGap⟩ := spans
      refine ⟨_, rfl, .lineComment oneLine atEnd isGap, ?_, visible⟩
      rw [lines]
      simp
  | case4 text line ih =>
      obtain ⟨span, rfl, spans, lines, visible⟩ := ih ended
      obtain ⟨body, gap, rfl, unclosed, isGap⟩ := spans
      refine ⟨_, rfl, .blockComment unclosed isGap, ?_, visible⟩
      rw [lines]
      simp
  | case5 character text line _ _ isBlank ih =>
      obtain ⟨span, rfl, isGap, lines, visible⟩ := ih ended
      exact ⟨character :: span, rfl, .blank isBlank isGap,
        lines.trans (lineAfter_add_count character span line), visible⟩
  | case6 character text line noLineComment noBlockComment notBlank =>
      cases ended
      refine ⟨[], rfl, .empty, rfl, by simpa using notBlank, ?_, ?_⟩
      · rintro ⟨tail, same⟩
        cases same
        exact noLineComment tail rfl rfl
      · rintro ⟨tail, same⟩
        cases same
        exact noBlockComment tail rfl rfl
  | case7 text line ih =>
      obtain ⟨span, rfl, isGap, lines, visible⟩ := ih ended
      exact ⟨'\n' :: span, rfl,
        ⟨[], '\n' :: span, rfl, by simp, .inr rfl, .blank (by decide) isGap⟩,
        lines.trans (lineAfter_add_count '\n' span line), visible⟩
  | case8 character text line notEnd ih =>
      obtain ⟨span, rfl, spans, lines, visible⟩ := ih ended
      obtain ⟨body, gap, rfl, oneLine, atEnd, isGap⟩ := spans
      refine ⟨character :: (body ++ gap), rfl,
        ⟨character :: body, gap, rfl, by simp [oneLine, Ne.symm notEnd], atEnd, isGap⟩, ?_, visible⟩
      rw [lines]
      simp [notEnd]
  | case9 start text line ih =>
      obtain ⟨span, rfl, isGap, lines, visible⟩ := ih ended
      refine ⟨'*' :: ')' :: span, rfl, ⟨[], span, rfl, by simp, isGap⟩, ?_, visible⟩
      rw [lines]
      simp
  | case10 start character text line goesOn ih =>
      obtain ⟨span, rfl, spans, lines, visible⟩ := ih ended
      obtain ⟨body, gap, rfl, unclosed, isGap⟩ := spans
      refine ⟨character :: (body ++ '*' :: ')' :: gap), rfl,
        ⟨character :: body, gap, rfl, ?_, isGap⟩,
        lines.trans (lineAfter_add_count character _ line), visible⟩
      rw [List.infix_cons_iff]
      rintro (⟨tail, same⟩ | inside)
      · cases same
        exact goesOn _ rfl rfl
      · exact unclosed inside

end Gap

/-! ### Words -/

/-- The word that spells a token. A number is spelled by digits, of which the first ones may be
zero, and it is a 32-bit value. A name is a letter followed by letters and digits, and no keyword.
-/
def Token.SpelledBy (token : Token) (word : List Char) : Prop :=
  match token with
  | .number value => word ≠ [] ∧ word.all Char.isDigit = true ∧
      value.toInt = Nat.ofDigitChars 10 word 0
  | .ident name => word = name.toList ∧ isIdentifier name = true ∧
      ∀ keyword ∈ Token.keywords, keyword.text ≠ name
  | token => word = token.text.toList

namespace Lexer

variable {first : Char} {rest after word : List Char} {line : Nat} {read : Token}

/-- Digits denote a value exactly if it is the number that they spell. -/
theorem read?_eq_some (digits : (first :: rest).all Char.isDigit = true) {value : Int32} :
    Decimal.read? (first :: rest) = some value ↔
      value.toInt = Nat.ofDigitChars 10 (first :: rest) 0 := by
  have digit : first.isDigit = true := by simp_all
  have number : Decimal.read? (first :: rest) =
      Decimal.ofInt? (Nat.ofDigitChars 10 (first :: rest) 0) := by
    rw [Decimal.read?_of_isDigit digit, Decimal.magnitude?, if_pos ⟨by simp, digits⟩]
    rfl
  rw [number]
  constructor
  · exact Decimal.toInt_of_ofInt?
  · intro same
    rw [← same, Decimal.ofInt?_toInt]

theorem ofWord_of_ne_keyword {name : String}
    (plain : ∀ keyword ∈ Token.keywords, keyword.text ≠ name) :
    Token.ofWord name = .ident name := by
  have absent : Token.keywords.find? (·.text = name) = none := by
    rw [List.find?_eq_none]
    simpa using plain
  rw [Token.ofWord, absent]
  rfl

/-- A token is read from any word that spells it, if it ends there. -/
theorem next_of_spelledBy {token : Token} (spelled : token.SpelledBy word)
    (ends : token.endsBefore rest.head? = true) :
    next ⟨word ++ rest, line⟩ = (.ok ⟨some token, line⟩, ⟨rest, line⟩) := by
  cases token with
  | number value =>
      obtain ⟨nonempty, digits, same⟩ := spelled
      obtain ⟨first, tail, rfl⟩ := List.exists_cons_of_ne_nil nonempty
      exact next_digits nonempty digits ((read?_eq_some digits).mpr same)
        (by simpa [Token.endsBefore] using ends)
  | ident name =>
      obtain ⟨rfl, identifier, plain⟩ := spelled
      have read : next ⟨name.toList ++ rest, line⟩ =
          (.ok ⟨some (Token.ofWord name), line⟩, ⟨rest, line⟩) :=
        next_word identifier (by simpa [Token.endsBefore] using ends)
      rwa [ofWord_of_ne_keyword plain] at read
  | _ =>
      cases spelled
      exact next_text rfl ends

theorem spelledBy_text_of_mem_keywords {keyword : Token} (mem : keyword ∈ Token.keywords) :
    keyword.SpelledBy keyword.text.toList := by
  cases keyword with
  | ident name => simp [Token.keywords] at mem
  | number value => simp [Token.keywords] at mem
  | _ => rfl

theorem endsBefore_of_mem_keywords {keyword : Token} (mem : keyword ∈ Token.keywords)
    (next : Option Char) : keyword.endsBefore next = !next.any Char.isAlphanum := by
  revert keyword
  simp [Token.keywords, Token.endsBefore]

/-- A word spells the keyword or the name that it is read as. -/
theorem spelledBy_ofWord {word : String} (identifier : isIdentifier word = true)
    {next : Option Char} (ends : next.any Char.isAlphanum = false) :
    (Token.ofWord word).SpelledBy word.toList ∧ (Token.ofWord word).endsBefore next = true := by
  rw [Token.ofWord]
  cases found : Token.keywords.find? (·.text = word) with
  | none =>
      rw [List.find?_eq_none] at found
      refine ⟨⟨rfl, identifier, by simpa using found⟩, ?_⟩
      simp [Token.endsBefore, ends]
  | some keyword =>
      have mem := List.mem_of_find?_eq_some found
      obtain rfl : keyword.text = word := by simpa using List.find?_some found
      refine ⟨spelledBy_text_of_mem_keywords mem, ?_⟩
      rw [Option.getD_some, endsBefore_of_mem_keywords mem, ends]
      rfl

theorem head?_dropWhile_any (select : Char → Bool) (text : List Char) :
    (text.dropWhile select).head?.any select = false := by
  have stops := List.head?_dropWhile_not select text
  cases head : (text.dropWhile select).head? with
  | none => rfl
  | some next => simpa [head] using stops

theorem head?_ne_of_forall {character : Char} {text : List Char}
    (absent : ∀ tail, text = character :: tail → False) : text.head? ≠ some character := by
  intro head
  obtain ⟨tail, rfl⟩ := List.head?_eq_some_iff.mp head
  exact absent tail rfl

/-- What is read from a visible text is the token that its first word spells. -/
theorem exists_word_of_token (visible : Gap.Visible (first :: rest))
    (taken : token first rest line = (.ok read, after)) :
    ∃ word, first :: rest = word ++ after ∧ read.SpelledBy word ∧
      read.endsBefore after.head? = true := by
  unfold token at taken
  split at taken
  next letter =>
    cases taken
    have identifier :
        isIdentifier (String.ofList (first :: rest.takeWhile Char.isAlphanum)) = true := by
      simp [isIdentifier, letter]
    obtain ⟨spelled, ends⟩ := spelledBy_ofWord identifier
      (head?_dropWhile_any Char.isAlphanum rest)
    rw [String.toList_ofList] at spelled
    exact ⟨_, by simp, spelled, ends⟩
  next =>
    split at taken
    next digit =>
      simp only [Prod.mk.injEq] at taken
      obtain ⟨number, rfl⟩ := taken
      have digits : (first :: rest.takeWhile Char.isDigit).all Char.isDigit = true := by
        simp [digit]
      rw [numberToken] at number
      split at number
      next value denotes =>
        cases number
        refine ⟨_, by simp, ⟨by simp, digits, (read?_eq_some digits).mp denotes⟩, ?_⟩
        simp [Token.endsBefore, head?_dropWhile_any]
      next => cases number
    next =>
      refine ⟨read.text.toList, ?_⟩
      split at taken
      all_goals simp only [Prod.mk.injEq, Except.ok.injEq, reduceCtorEq, false_and] at taken
      all_goals obtain ⟨rfl, rfl⟩ := taken
      all_goals refine ⟨rfl, rfl, ?_⟩
      -- Only four symbols are the start of something longer.
      case h_5 notEqual notGreater =>
        simp [Token.endsBefore, head?_ne_of_forall notEqual, head?_ne_of_forall notGreater]
      case h_7 notEqual => simp [Token.endsBefore, head?_ne_of_forall notEqual]
      case h_12 =>
        have noComment : ∀ tail, rest = '/' :: tail → False := by
          rintro tail rfl
          exact visible.lineComment ⟨tail, rfl⟩
        simp [Token.endsBefore, head?_ne_of_forall noComment]
      case h_13 =>
        have noComment : ∀ tail, rest = '*' :: tail → False := by
          rintro tail rfl
          exact visible.blockComment ⟨tail, rfl⟩
        simp [Token.endsBefore, head?_ne_of_forall noComment]
      all_goals rfl

/-- A gap in front of a text is skipped before the text is read. -/
theorem next_gap {gap : List Char} (isGap : IsGap gap after) :
    next ⟨gap ++ after, line⟩ = next ⟨after, line + gap.count '\n'⟩ := by
  rw [next, next]
  simp only [Gap.skip_gap isGap]

/-- One reading gives a token exactly if the text starts with a gap and a word that spells it. -/
theorem next_eq_token {lexer behind : Lexer} : lexer.next = (.ok ⟨some read, line⟩, behind) ↔
    ∃ gap word rest, lexer.rest = gap ++ (word ++ rest) ∧ IsGap gap (word ++ rest) ∧
      read.SpelledBy word ∧ read.endsBefore rest.head? = true ∧
      line = lexer.line + gap.count '\n' ∧ behind = ⟨rest, line⟩ := by
  constructor
  · intro result
    unfold next at result
    split at result
    next => cases result
    next => cases result
    next => cases result
    next first tail line' _ ended =>
      obtain ⟨gap, text, isGap, lines, visible⟩ := Gap.exists_spans ended
      split at result
      next taken =>
        cases result
        obtain ⟨word, same, spelled, ends⟩ := exists_word_of_token visible taken
        rw [same] at text isGap
        exact ⟨gap, word, _, text, isGap, spelled, ends, lines, rfl⟩
      next => cases result
  · obtain ⟨text, start⟩ := lexer
    rintro ⟨gap, word, rest, rfl, isGap, spelled, ends, rfl, rfl⟩
    rw [next_gap isGap]
    exact next_of_spelledBy spelled ends

/-- One reading finds the end of the text exactly if only a gap is left in front of it or of a full
stop. -/
theorem next_eq_end {lexer behind : Lexer} : lexer.next = (.ok ⟨none, line⟩, behind) ↔
    ∃ gap rest, lexer.rest = gap ++ rest ∧ IsGap gap rest ∧ (rest = [] ∨ rest.head? = some '.') ∧
      line = lexer.line + gap.count '\n' ∧ behind = ⟨rest, line⟩ := by
  constructor
  · intro result
    unfold next at result
    split at result
    next => cases result
    next ended =>
      obtain ⟨gap, text, isGap, lines, -⟩ := Gap.exists_spans ended
      cases result
      exact ⟨gap, [], text, isGap, .inl rfl, lines, rfl⟩
    next ended =>
      obtain ⟨gap, text, isGap, lines, -⟩ := Gap.exists_spans ended
      cases result
      exact ⟨gap, _, text, isGap, .inr rfl, lines, rfl⟩
    next => split at result <;> cases result
  · obtain ⟨text, start⟩ := lexer
    rintro ⟨gap, rest, rfl, isGap, ended, rfl, rfl⟩
    rw [next_gap isGap]
    rcases ended with rfl | stop
    · rfl
    · obtain ⟨tail, rfl⟩ := List.head?_eq_some_iff.mp stop
      rfl

end Lexer

/-! ### Whole texts -/

theorem TokenStream.push_eq {stream : TokenStream} {answer first : Except Error Lexeme}
    {others : List (Except Error Lexeme)} {last : Except Error Nat} :
    stream.push answer = ⟨first :: others, last⟩ ↔ answer = first ∧ stream = ⟨others, last⟩ := by
  cases stream
  simp [TokenStream.push, and_assoc]

/-- The text behind `before` consists of words that spell the tokens of the lexemes, with gaps
around them, up to the end or to a full stop. No word can be taken for a part of a longer one or
for the start of a comment, and the line of a word is one more than the line ends in front of it.
-/
inductive Tokenised : List Char → List Char → List Lexeme → Prop where
  | stop {before gap rest : List Char} :
      IsGap gap rest → (rest = [] ∨ rest.head? = some '.') → Tokenised before (gap ++ rest) []
  | word {before gap word rest : List Char} {token : Token} {lexemes : List Lexeme} :
      IsGap gap (word ++ rest) → token.SpelledBy word → token.endsBefore rest.head? = true →
      Tokenised (before ++ gap ++ word) rest lexemes →
      Tokenised before (gap ++ (word ++ rest))
        (⟨token, 1 + (before ++ gap).count '\n'⟩ :: lexemes)

/-- There is no line end in a word. -/
theorem Token.SpelledBy.count_newline {token : Token} {word : List Char}
    (spelled : token.SpelledBy word) : word.count '\n' = 0 := by
  rw [List.count_eq_zero]
  cases token with
  | number value =>
      intro mem
      exact absurd (List.all_eq_true.mp spelled.2.1 _ mem) (by decide)
  | ident name =>
      obtain ⟨rfl, identifier, -⟩ := spelled
      intro mem
      exact absurd (List.all_eq_true.mp (isAlphanum_of_isIdentifier identifier) _ mem) (by decide)
  | relation comparison =>
      cases spelled
      cases comparison <;> decide
  | _ =>
      cases spelled
      decide

namespace Tokenised

variable {before text : List Char} {lexemes : List Lexeme}

/-- The stream of a text of words. -/
theorem ofLexer_eq (tokenised : Tokenised before text lexemes) :
    ∃ ending, TokenStream.ofLexer ⟨text, 1 + before.count '\n'⟩ =
      ⟨lexemes.map .ok, .ok ending⟩ := by
  induction tokenised with
  | @stop before gap rest isGap ended =>
      exact ⟨_, TokenStream.ofLexer_of_end
        (Lexer.next_eq_end.mpr ⟨gap, rest, rfl, isGap, ended, rfl, rfl⟩)⟩
  | @word before gap word rest token lexemes isGap spelled ends _ ih =>
      obtain ⟨ending, stream⟩ := ih
      have read : Lexer.next ⟨gap ++ (word ++ rest), 1 + before.count '\n'⟩ =
          (.ok ⟨some token, _⟩, _) :=
        Lexer.next_eq_token.mpr ⟨gap, word, rest, rfl, isGap, spelled, ends, rfl, rfl⟩
      have line : 1 + (before ++ gap ++ word).count '\n' =
          1 + before.count '\n' + gap.count '\n' := by
        simp [spelled.count_newline, Nat.add_assoc]
      rw [line] at stream
      refine ⟨ending, ?_⟩
      rw [TokenStream.ofLexer_of_token read, stream]
      simp [TokenStream.push, Nat.add_assoc]

/-- A text whose stream has no error is a text of words. -/
theorem of_ofLexer {lexer : Lexer} (here : lexer.line = 1 + before.count '\n') {ending : Nat}
    (stream : TokenStream.ofLexer lexer = ⟨lexemes.map .ok, .ok ending⟩) :
    Tokenised before lexer.rest lexemes := by
  fun_induction TokenStream.ofLexer lexer generalizing before lexemes with
  | case1 lexer token line behind result shorter ih =>
      obtain ⟨gap, word, rest, text, isGap, spelled, ends, rfl, rfl⟩ :=
        Lexer.next_eq_token.mp result
      cases lexemes with
      | nil => cases congrArg (·.ahead) stream
      | cons lexeme lexemes =>
          rw [List.map_cons, TokenStream.push_eq] at stream
          obtain ⟨first, stream⟩ := stream
          cases first
          have line : 1 + before.count '\n' + gap.count '\n' =
              1 + (before ++ gap).count '\n' := by
            rw [List.count_append, Nat.add_assoc]
          have behind : lexer.line + gap.count '\n' =
              1 + (before ++ gap ++ word).count '\n' := by
            simp [here, spelled.count_newline, Nat.add_assoc]
          rw [text, here, line]
          exact .word isGap spelled ends (ih behind stream)
  | case2 lexer line behind result =>
      obtain ⟨gap, rest, text, isGap, ended, -⟩ := Lexer.next_eq_end.mp result
      cases lexemes with
      | nil =>
          rw [text]
          exact .stop isGap ended
      | cons lexeme lexemes => cases congrArg (·.ahead) stream
  | case3 lexer error behind result shorter ih =>
      cases lexemes <;> cases congrArg (·.ahead) stream
  | case4 lexer error behind result longer => cases congrArg (·.last) stream

end Tokenised

/-- A text has exactly the tokens that its words spell, with the lines on which they stand, and none
if it is no text of words. -/
theorem scan_iff_tokenised (source : String) (lexemes : List Lexeme) :
    scan source = .ok lexemes ↔ Tokenised [] source.toList lexemes := by
  rw [scan_eq_ok]
  constructor
  · rintro ⟨ahead, ending, last⟩
    have stream : TokenStream.ofText source = ⟨lexemes.map .ok, .ok ending⟩ := by
      rw [← ahead, ← last]
    exact Tokenised.of_ofLexer rfl stream
  · intro tokenised
    obtain ⟨ending, stream⟩ := tokenised.ofLexer_eq
    exact ⟨congrArg (·.ahead) stream, ending, congrArg (·.last) stream⟩

end MiniPascal
