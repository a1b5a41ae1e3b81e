import MiniPascal.Proofs.Text.Decimal
import MiniPascal.Proofs.Tree.Names
import MiniPascal.Token.Stream

/-!
# Reading back spelled tokens

A token that a source text can say is read back from its spelling if what follows does not lengthen
it or turn it into the start of a comment. `Spells` puts tokens, blanks and the full stop together.
Conversely, every token that a text gives is one that a source text can say.
-/

namespace MiniPascal

/-- Whether a word is an identifier of the language: a letter followed by letters and digits, and no
keyword. -/
def isPlainName (name : String) : Bool :=
  isIdentifier name && Token.ofWord name = .ident name

/-- Whether a source text can say the token. -/
def Token.spellable : Token → Bool
  | .ident name => isPlainName name
  | .number value => 0 ≤ value
  | _ => true

/-- Whether the token ends in front of a character, or in front of the end of the text. -/
def Token.endsBefore (token : Token) (next : Option Char) : Bool :=
  match token with
  | .number _ => !next.any Char.isDigit
  | .relation .lt => next ≠ some '=' && next ≠ some '>'
  | .relation .gt => next ≠ some '='
  | .divide => next ≠ some '/'
  | .leftParen => next ≠ some '*'
  | .relation .eq | .relation .ne | .relation .le | .relation .ge => true
  | .assign | .plus | .minus | .times | .rightParen | .comma | .semicolon => true
  | .ident _ | .kwVar | .kwProcedure | .kwBegin | .kwEnd | .kwIf | .kwThen | .kwElse | .kwWhile
  | .kwDo | .kwWriteln | .kwReadln | .kwMod => !next.any Char.isAlphanum

namespace Lexer

variable {first : Char} {rest : List Char} {line : Nat}

theorem skip_eq_text (visible : Text.isBlank first = false)
    (noLineComment : first = '/' → rest.head? ≠ some '/')
    (noBlockComment : first = '(' → rest.head? ≠ some '*') :
    Gap.blank.skip (first :: rest) line = .text (first :: rest) line := by
  unfold Gap.skip
  grind

theorem isAlpha_iff : first.isAlpha ↔
    (65 ≤ first.toNat ∧ first.toNat ≤ 90) ∨ (97 ≤ first.toNat ∧ first.toNat ≤ 122) := by
  have ranges : first.isAlpha = (decide (65 ≤ first.val ∧ first.val ≤ 90) ||
      decide (97 ≤ first.val) && decide (first.val ≤ 122)) := rfl
  rw [ranges]
  simp only [Bool.or_eq_true, Bool.and_eq_true, decide_eq_true_eq, UInt32.le_iff_toNat_le]
  rfl

theorem isDigit_iff : first.isDigit ↔ 48 ≤ first.toNat ∧ first.toNat ≤ 57 := by
  have range : first.isDigit = (decide (48 ≤ first.val) && decide (first.val ≤ 57)) := rfl
  rw [range]
  simp only [Bool.and_eq_true, decide_eq_true_eq, UInt32.le_iff_toNat_le]
  rfl

theorem isBlank_of_isAlphanum (alphanumeric : first.isAlphanum) : Text.isBlank first = false := by
  rw [Char.isAlphanum, Bool.or_eq_true, isAlpha_iff, isDigit_iff] at alphanumeric
  simp only [Text.isBlank, Text.inRanges, Text.blankRanges, Text.CodeRange.holds, List.any_cons,
    List.any_nil, Bool.or_eq_false_iff, Bool.and_eq_false_iff, decide_eq_false_iff_not, and_true]
  omega

/-- Reading starts a token at a character that is visible and opens no comment. -/
theorem next_eq_of_token {read : Token} {after : List Char} (visible : Text.isBlank first = false)
    (noStop : first ≠ '.') (noLineComment : first = '/' → rest.head? ≠ some '/')
    (noBlockComment : first = '(' → rest.head? ≠ some '*')
    (taken : token first rest line = (.ok read, after)) :
    next ⟨first :: rest, line⟩ = (.ok ⟨some read, line⟩, ⟨after, line⟩) := by
  have ended : Gap.blank.skip (first :: rest) line = .text (first :: rest) line :=
    skip_eq_text visible noLineComment noBlockComment
  unfold next
  grind

/-- Reading starts a token at a letter or digit. -/
theorem next_eq_of_isAlphanum {read : Token} {after : List Char} (alphanumeric : first.isAlphanum)
    (taken : token first rest line = (.ok read, after)) :
    next ⟨first :: rest, line⟩ = (.ok ⟨some read, line⟩, ⟨after, line⟩) := by
  refine next_eq_of_token (isBlank_of_isAlphanum alphanumeric) ?_ ?_ ?_ taken
  · rintro rfl
    cases alphanumeric
  · rintro rfl
    cases alphanumeric
  · rintro rfl
    cases alphanumeric

/-- A run of elements of a class ends where the next one is not in the class. -/
theorem takeWhile_dropWhile_append {α : Type} {select : α → Bool} {run rest : List α}
    (all : run.all select) (ends : rest.head?.any select = false) :
    (run ++ rest).takeWhile select = run ∧ (run ++ rest).dropWhile select = rest := by
  rw [List.all_eq_true] at all
  rw [List.takeWhile_append_of_pos all, List.dropWhile_append_of_pos all]
  cases rest with
  | nil => simp
  | cons next tail =>
      have stops : select next = false := by simpa using ends
      simp [stops]

theorem next_word {word : String} (identifier : isIdentifier word)
    (ends : rest.head?.any Char.isAlphanum = false) :
    next ⟨word.toList ++ rest, line⟩ = (.ok ⟨some (Token.ofWord word), line⟩, ⟨rest, line⟩) := by
  unfold isIdentifier at identifier
  split at identifier
  next first tail spelled =>
    rw [Bool.and_eq_true] at identifier
    obtain ⟨letter, alphanumeric⟩ := identifier
    obtain ⟨taken, dropped⟩ := takeWhile_dropWhile_append alphanumeric ends
    rw [spelled, List.cons_append]
    refine next_eq_of_isAlphanum (by simp [Char.isAlphanum, letter]) ?_
    unfold token
    rw [if_pos letter, taken, dropped, ← spelled, String.ofList_toList]
  next => cases identifier

theorem not_isAlpha_of_isDigit (digit : first.isDigit) : ¬first.isAlpha := by
  rw [isDigit_iff] at digit
  rw [isAlpha_iff]
  omega

/-- Digits are read as the number that they denote. -/
theorem next_digits {digits : List Char} {value : Int32} (nonempty : digits ≠ [])
    (all : digits.all Char.isDigit) (denotes : Decimal.read? digits = some value)
    (ends : rest.head?.any Char.isDigit = false) :
    next ⟨digits ++ rest, line⟩ = (.ok ⟨some (.number value), line⟩, ⟨rest, line⟩) := by
  obtain ⟨first, tail, rfl⟩ := List.exists_cons_of_ne_nil nonempty
  rw [List.all_cons, Bool.and_eq_true] at all
  obtain ⟨digit, others⟩ := all
  obtain ⟨taken, dropped⟩ := takeWhile_dropWhile_append others ends
  have noLetter := not_isAlpha_of_isDigit digit
  rw [List.cons_append]
  refine next_eq_of_isAlphanum (by simp [Char.isAlphanum, digit]) ?_
  unfold token
  rw [if_neg noLetter, if_pos digit, taken, dropped, numberToken, denotes]

/-- A value that is not negative is written in digits. -/
theorem isDigit_render {value : Int32} (nonnegative : 0 ≤ value) :
    (Decimal.render value).toList ≠ [] ∧
      (Decimal.render value).toList.all Char.isDigit = true := by
  have unsigned : (Decimal.render value).toList = Nat.toDigits 10 value.toInt.natAbs := by
    rw [Decimal.render, if_neg (Int32.not_lt.mpr nonnegative), Nat.toList_repr]
  rw [unsigned]
  constructor
  · exact Nat.toDigits_ne_nil
  · rw [List.all_eq_true]
    exact fun character => Nat.isDigit_of_mem_toDigits (by decide) (by decide)

theorem next_number {value : Int32} (nonnegative : 0 ≤ value)
    (ends : rest.head?.any Char.isDigit = false) :
    next ⟨(Decimal.render value).toList ++ rest, line⟩ =
      (.ok ⟨some (.number value), line⟩, ⟨rest, line⟩) := by
  obtain ⟨nonempty, digits⟩ := isDigit_render nonnegative
  exact next_digits nonempty digits (Decimal.read?_render value) ends

/-- Reading starts a token at a symbol that opens no comment. -/
theorem next_symbol {read : Token} {after : List Char} (symbol : first ∈ ":<>=+-*),;".toList)
    (taken : token first rest line = (.ok read, after)) :
    next ⟨first :: rest, line⟩ = (.ok ⟨some read, line⟩, ⟨after, line⟩) := by
  have plain : ":<>=+-*),;".toList.all fun character => Text.isBlank character = false ∧
      character ≠ '.' ∧ character ≠ '/' ∧ character ≠ '(' := by decide
  obtain ⟨visible, noStop, noSlash, noParen⟩ :=
    of_decide_eq_true (List.all_eq_true.mp plain first symbol)
  exact next_eq_of_token visible noStop (absurd · noSlash) (absurd · noParen) taken

theorem next_relation (comparison : Comparison)
    (ends : (Token.relation comparison).endsBefore rest.head?) :
    next ⟨comparison.symbol.toList ++ rest, line⟩ =
      (.ok ⟨some (.relation comparison), line⟩, ⟨rest, line⟩) := by
  cases comparison with
  | eq => exact next_symbol (by decide) rfl
  | ne => exact next_symbol (by decide) rfl
  | le => exact next_symbol (by decide) rfl
  | ge => exact next_symbol (by decide) rfl
  | lt =>
      refine next_symbol (by decide) ?_
      simp only [Token.endsBefore] at ends
      change token '<' rest line = _
      unfold token
      grind
  | gt =>
      refine next_symbol (by decide) ?_
      simp only [Token.endsBefore] at ends
      change token '>' rest line = _
      unfold token
      grind

/-- A token is read back from its spelling if it ends there. -/
theorem next_text {token : Token} (spellable : token.spellable)
    (ends : token.endsBefore rest.head?) :
    next ⟨token.text.toList ++ rest, line⟩ = (.ok ⟨some token, line⟩, ⟨rest, line⟩) := by
  cases token with
  | ident name =>
      simp only [Token.spellable, isPlainName, Bool.and_eq_true, decide_eq_true_eq] at spellable
      have read : next ⟨name.toList ++ rest, line⟩ =
          (.ok ⟨some (Token.ofWord name), line⟩, ⟨rest, line⟩) :=
        next_word spellable.1 (by simpa [Token.endsBefore] using ends)
      rwa [spellable.2] at read
  | number value =>
      exact next_number (by simpa [Token.spellable] using spellable)
        (by simpa [Token.endsBefore] using ends)
  | relation comparison => exact next_relation comparison ends
  | leftParen =>
      have noComment : rest.head? ≠ some '*' := by simpa [Token.endsBefore] using ends
      exact next_eq_of_token (by decide) (by decide) (fun slash => absurd slash (by decide))
        (fun _ => noComment) rfl
  | divide =>
      have noComment : rest.head? ≠ some '/' := by simpa [Token.endsBefore] using ends
      exact next_eq_of_token (by decide) (by decide) (fun _ => noComment)
        (fun paren => absurd paren (by decide)) rfl
  | assign | plus | minus | times | rightParen | comma | semicolon =>
      exact next_symbol (by decide) rfl
  | kwVar | kwProcedure | kwBegin | kwEnd | kwIf | kwThen | kwElse | kwWhile | kwDo | kwWriteln
  | kwReadln | kwMod => exact next_word (by decide) (by simpa [Token.endsBefore] using ends)

end Lexer

namespace TokenStream

variable {lexer after : Lexer} {line : Nat}

theorem ofLexer_of_token {token : Token} (read : lexer.next = (.ok ⟨some token, line⟩, after)) :
    ofLexer lexer = (ofLexer after).push (.ok ⟨token, line⟩) := by
  rw [ofLexer]
  grind

theorem ofLexer_of_end (ended : lexer.next = (.ok ⟨none, line⟩, after)) :
    ofLexer lexer = ⟨[], .ok line⟩ := by
  rw [ofLexer]
  grind

theorem ofLexer_of_error {error : Error} (failed : lexer.next = (.error error, after)) :
    ofLexer lexer =
      if after.rest.length < lexer.rest.length then (ofLexer after).push (.error error)
      else ⟨[], .error error⟩ := by
  rw [ofLexer]
  grind

/-- A stream without errors depends only on what the next call gives. -/
theorem ofLexer_congr {lexer' : Lexer} (same : lexer'.next = lexer.next) {lexemes : List Lexeme}
    (stream : ofLexer lexer = ⟨lexemes.map .ok, .ok line⟩) : ofLexer lexer' = ofLexer lexer := by
  match read : lexer.next with
  | (.ok ⟨some token, _⟩, after) =>
      rw [ofLexer_of_token read, ofLexer_of_token (same.trans read)]
  | (.ok ⟨none, _⟩, after) => rw [ofLexer_of_end read, ofLexer_of_end (same.trans read)]
  | (.error error, after) =>
      rw [ofLexer_of_error read] at stream
      split at stream
      · cases lexemes <;> cases congrArg (·.ahead) stream
      · cases congrArg (·.last) stream

end TokenStream

section Scanning

variable {text : String} {lexemes : List Lexeme}

theorem mapM_id_eq_ok {answers : List (Except Error Lexeme)} :
    answers.mapM id = .ok lexemes ↔ answers = lexemes.map .ok := by
  induction answers generalizing lexemes with
  | nil => simp [pure, Except.pure, eq_comm]
  | cons answer answers ih =>
      cases answer with
      | error error => cases lexemes <;> simp [bind, Except.bind]
      | ok lexeme =>
          cases rest : answers.mapM id <;> cases lexemes <;>
            simp [bind, Except.bind, pure, Except.pure, rest, ← ih]

theorem scan_eq_ok : scan text = .ok lexemes ↔
    (TokenStream.ofText text).ahead = lexemes.map .ok ∧
      ∃ line, (TokenStream.ofText text).last = .ok line := by
  rw [← mapM_id_eq_ok]
  unfold scan TokenStream.tokens
  cases (TokenStream.ofText text).ahead.mapM id with
  | error error => simp [bind, Except.bind]
  | ok others =>
      cases (TokenStream.ofText text).last <;> simp [bind, Except.bind, pure, Except.pure]

end Scanning

/-- A lexer at the start of the text, on whatever line, gives the tokens and then the end of the
text. -/
def Spells (text : String) (tokens : List Token) : Prop :=
  ∀ line, ∃ lexemes : List Lexeme, ∃ ending,
    TokenStream.ofLexer ⟨text.toList, line⟩ = ⟨lexemes.map .ok, .ok ending⟩ ∧
      lexemes.map (·.token) = tokens

namespace Spells

variable {text : String} {tokens : List Token}

theorem stop (text : String) : Spells ("." ++ text) [] := by
  intro line
  rw [String.toList_append]
  exact ⟨[], line, TokenStream.ofLexer_of_end rfl, rfl⟩

theorem blank {character : Char} (isBlank : Text.isBlank character) (spells : Spells text tokens) :
    Spells (String.singleton character ++ text) tokens := by
  intro line
  obtain ⟨lexemes, ending, stream, same⟩ := spells (lineAfter character line)
  refine ⟨lexemes, ending, ?_, same⟩
  rw [← stream]
  refine TokenStream.ofLexer_congr ?_ stream
  have skips : Gap.blank.skip (character :: text.toList) line =
      Gap.blank.skip text.toList (lineAfter character line) := by
    have noSlash : character ≠ '/' := by
      rintro rfl
      exact absurd isBlank (by decide)
    have noParen : character ≠ '(' := by
      rintro rfl
      exact absurd isBlank (by decide)
    simp [Gap.skip, noSlash, noParen, isBlank]
  simp [Lexer.next, skips]

theorem token {token : Token} (spellable : token.spellable)
    (ends : token.endsBefore text.toList.head?) (spells : Spells text tokens) :
    Spells (token.text ++ text) (token :: tokens) := by
  intro line
  obtain ⟨lexemes, ending, stream, rfl⟩ := spells line
  have read : Lexer.next ⟨token.text.toList ++ text.toList, line⟩ =
      (.ok ⟨some token, line⟩, ⟨text.toList, line⟩) :=
    Lexer.next_text spellable ends
  refine ⟨⟨token, line⟩ :: lexemes, ending, ?_, rfl⟩
  rw [String.toList_append, TokenStream.ofLexer_of_token read, stream]
  rfl

end Spells

/-- The tokens of a text that spells them. -/
theorem scan_of_spells {text : String} {tokens : List Token} (spells : Spells text tokens) :
    ∃ lexemes, scan text = .ok lexemes ∧ lexemes.map (·.token) = tokens := by
  obtain ⟨lexemes, ending, stream, same⟩ := spells 1
  exact ⟨lexemes,
    scan_eq_ok.mpr ⟨congrArg (·.ahead) stream, ending, congrArg (·.last) stream⟩, same⟩

section Spellable

theorem spellable_ofWord {word : String} (identifier : isIdentifier word) :
    (Token.ofWord word).spellable := by
  cases found : Token.keywords.find? (·.text = word) with
  | none =>
      have plain : Token.ofWord word = .ident word := by simp [Token.ofWord, found]
      simp [plain, Token.spellable, isPlainName, identifier]
  | some keyword =>
      have reserved : ∀ token ∈ Token.keywords, token.spellable := by decide
      simpa [Token.ofWord, found] using reserved keyword (List.mem_of_find?_eq_some found)

theorem spellable_numberToken {first : Char} {rest : List Char} {line : Nat} {read : Token}
    (digit : first.isDigit) (taken : Lexer.numberToken (first :: rest) line = .ok read) :
    read.spellable := by
  rw [Lexer.numberToken, Decimal.read?_of_isDigit digit] at taken
  split at taken
  next value found =>
    cases taken
    obtain ⟨number, -, fits⟩ := Option.bind_eq_some_iff.mp found
    have nonnegative : 0 ≤ value := by
      rw [Int32.le_iff_toInt_le, Decimal.toInt_of_ofInt? fits]
      exact Int.natCast_nonneg number
    simpa [Token.spellable] using nonnegative
  next => cases taken

theorem spellable_token {first : Char} {rest after : List Char} {line : Nat} {read : Token}
    (taken : Lexer.token first rest line = (.ok read, after)) : read.spellable := by
  unfold Lexer.token at taken
  split at taken
  next letter =>
    cases taken
    apply spellable_ofWord
    simp [isIdentifier, letter]
  next =>
    split at taken
    next digit =>
      simp only [Prod.mk.injEq] at taken
      exact spellable_numberToken digit taken.1
    next => split at taken <;> grind [Token.spellable]

theorem spellable_next {lexer after : Lexer} {line : Nat} {read : Token}
    (result : lexer.next = (.ok ⟨some read, line⟩, after)) : read.spellable := by
  unfold Lexer.next at result
  split at result
  · cases result
  · cases result
  · cases result
  · split at result
    · next taken =>
        cases result
        exact spellable_token taken
    · cases result

/-- Every token that a lexer gives is one that a source text can say. -/
theorem spellable_of_ofLexer (lexer : Lexer) {lexeme : Lexeme}
    (mem : .ok lexeme ∈ (TokenStream.ofLexer lexer).ahead) : lexeme.token.spellable := by
  fun_induction TokenStream.ofLexer lexer with
  | case1 lexer token line after result shorter ih =>
      rcases List.mem_cons.mp mem with same | later
      · cases same
        exact spellable_next result
      · exact ih later
  | case2 => cases mem
  | case3 lexer error after result shorter ih =>
      rcases List.mem_cons.mp mem with same | later
      · cases same
      · exact ih later
  | case4 => cases mem

theorem spellable_of_scan {text : String} {lexemes : List Lexeme}
    (scanned : scan text = .ok lexemes) : ∀ token ∈ lexemes.map (·.token), token.spellable := by
  obtain ⟨ahead, -⟩ := scan_eq_ok.mp scanned
  intro token listed
  obtain ⟨lexeme, mem, rfl⟩ := List.mem_map.mp listed
  refine spellable_of_ofLexer (Lexer.ofText text) ?_
  change .ok lexeme ∈ (TokenStream.ofText text).ahead
  rw [ahead]
  exact List.mem_map.mpr ⟨lexeme, mem, rfl⟩

end Spellable

end MiniPascal
