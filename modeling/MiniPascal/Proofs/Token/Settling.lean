import MiniPascal.Proofs.Token.Tokenisation

/-!
# Lexers settle

A lexer can be called again after any answer, errors included. A call that does not give the last
answer of the text uses up some of it, so that there are at most as many such calls as characters.
From then on the answer is always the same: the end of the text, or the character that starts no
token and is never passed.
-/

namespace MiniPascal.Lexer

/-- The lexer that a number of calls leaves. -/
def after (lexer : Lexer) : Nat → Lexer
  | 0 => lexer
  | calls + 1 => (lexer.after calls).next.2

/-- The answer of a call, with a number of calls in front of it. -/
def answer (lexer : Lexer) (calls : Nat) : Except Error Reading :=
  (lexer.after calls).next.1

/-- An answer that stays the same for ever: the end of the text or an unknown character. -/
inductive Final : Except Error Reading → Prop where
  | ended (line : Nat) : Final (.ok ⟨none, line⟩)
  | unknown (character : Char) (line : Nat) : Final (.error (.unknownCharacter character line))

/-- At least one character of a text is used up. -/
def Consumes (text rest : List Char) : Prop :=
  ∃ taken, taken ≠ [] ∧ text = taken ++ rest

theorem Consumes.length_lt {text rest : List Char} (consumes : Consumes text rest) :
    rest.length < text.length := by
  rcases consumes with ⟨taken, nonempty, rfl⟩
  rw [List.length_append]
  exact Nat.lt_add_of_pos_left (List.length_pos_iff.2 nonempty)

theorem Consumes.behind {text rest : List Char} (consumes : Consumes text rest)
    (gap : List Char) : Consumes (gap ++ text) rest := by
  rcases consumes with ⟨taken, nonempty, rfl⟩
  exact ⟨gap ++ taken, by simp [nonempty], by rw [List.append_assoc]⟩

/-! ### One call -/

/-- What reading at a visible character comes to: the character is unknown and nothing is used up,
or something is used up and gives a token or another error. -/
inductive Outcome (text : List Char) (line : Nat) : Except Error Token × List Char → Prop where
  | unknown (character : Char) :
      Outcome text line (.error (.unknownCharacter character line), text)
  | read {rest : List Char} (token : Token) :
      Consumes text rest → Outcome text line (.ok token, rest)
  | failed {rest : List Char} {cause : Error} : Consumes text rest →
      (∀ character line, cause ≠ .unknownCharacter character line) →
      Outcome text line (.error cause, rest)

theorem outcome_token (first : Char) (rest : List Char) (line : Nat) :
    Outcome (first :: rest) line (token first rest line) := by
  have single : Consumes (first :: rest) rest := ⟨[first], by simp, rfl⟩
  have run (select : Char → Bool) : Consumes (first :: rest) (rest.dropWhile select) :=
    ⟨first :: rest.takeWhile select, by simp, by simp⟩
  unfold token
  split
  next => exact .read _ (run Char.isAlphanum)
  next =>
    split
    next =>
      rw [numberToken]
      split
      next value _ => exact .read _ (run Char.isDigit)
      next => exact .failed (run Char.isDigit) (by simp)
    next =>
      split
      -- Four of the symbols are two characters long.
      case h_1 | h_3 | h_4 | h_6 => exact .read _ ⟨[_, _], by simp, rfl⟩
      case h_2 => exact .failed single (by simp)
      case h_17 => exact .unknown _
      all_goals exact .read _ single

/-- No gap is skipped at a visible character. -/
theorem skip_of_visible {text : List Char} (visible : Gap.Visible text) (line : Nat) :
    Gap.blank.skip text line = .text text line := by
  cases text with
  | nil => rfl
  | cons first rest =>
      apply skip_eq_text
      · exact visible.blank
      · rintro rfl second
        rcases List.head?_eq_some_iff.1 second with ⟨others, rfl⟩
        exact visible.lineComment ⟨others, rfl⟩
      · rintro rfl second
        rcases List.head?_eq_some_iff.1 second with ⟨others, rfl⟩
        exact visible.blockComment ⟨others, rfl⟩

variable {lexer : Lexer} {rest : List Char} {line : Nat}

/-- Behind the gap, a call gives the same as in front of it. -/
theorem next_skipped (ended : Gap.blank.skip lexer.rest lexer.line = .text rest line) :
    next ⟨rest, line⟩ = lexer.next := by
  rcases Gap.exists_spans ended with ⟨gap, -, -, -, visible⟩
  rw [next, next, ended, skip_of_visible visible]

/-- Behind the gap, a token is read unless there is a full stop. -/
theorem next_visible {first : Char} (goesOn : first ≠ '.')
    (ended : Gap.blank.skip lexer.rest lexer.line = .text (first :: rest) line) :
    lexer.next = ((token first rest line).1.map fun read => ⟨some read, line⟩,
      ⟨(token first rest line).2, line⟩) := by
  unfold next
  split
  next unterminated =>
    rw [ended] at unterminated
    cases unterminated
  next empty =>
    rw [ended] at empty
    cases empty
  next stopped =>
    rw [ended] at stopped
    cases stopped
    exact absurd rfl goesOn
  next visible =>
    rw [ended] at visible
    cases visible
    split
    next taken =>
      rw [taken]
      rfl
    next taken =>
      rw [taken]
      rfl

/-- A comment without an end has a start. -/
theorem rest_ne_nil_of_unterminated {start : Nat}
    (ended : Gap.blank.skip lexer.rest lexer.line = .unterminated start line) :
    lexer.rest ≠ [] := by
  intro empty
  rw [empty] at ended
  cases ended

/-- A call gives a final answer and so does the next one, or it uses up some of the text. -/
theorem next_cases (lexer : Lexer) :
    (Final lexer.next.1 ∧ lexer.next.2.next = lexer.next) ∨
      (¬Final lexer.next.1 ∧ Consumes lexer.rest lexer.next.2.rest) := by
  cases ended : Gap.blank.skip lexer.rest lexer.line with
  | unterminated start line =>
      have result : lexer.next = (.error (.unterminatedComment start), ⟨[], line⟩) := by
        rw [next, ended]
      right
      rw [result]
      constructor
      · rintro ⟨⟩
      · exact ⟨lexer.rest, rest_ne_nil_of_unterminated ended, by simp⟩
  | text rest line =>
      have again := next_skipped ended
      rcases Gap.exists_spans ended with ⟨gap, text, isGap, lines, -⟩
      by_cases stop : rest = [] ∨ rest.head? = some '.'
      · have result : lexer.next = (.ok ⟨none, line⟩, ⟨rest, line⟩) :=
          next_eq_end.2 ⟨gap, rest, text, isGap, stop, lines, rfl⟩
        left
        rw [result] at again ⊢
        exact ⟨.ended line, again⟩
      · rw [not_or] at stop
        rcases List.exists_cons_of_ne_nil stop.1 with ⟨first, others, rfl⟩
        have result := next_visible (by simpa using stop.2) ended
        have outcome := outcome_token first others line
        generalize token first others line = taken at outcome result
        rw [text, result]
        cases outcome with
        | unknown character =>
            left
            rw [result] at again
            exact ⟨.unknown character line, again⟩
        | read token consumes =>
            right
            constructor
            · rintro ⟨⟩
            · exact consumes.behind gap
        | failed consumes known =>
            right
            constructor
            · intro final
              cases final with
              | unknown character line => exact known character line rfl
            · exact consumes.behind gap

/-! ### Call after call -/

/-- A final answer is given again by every later call. -/
theorem next_after_of_final {calls : Nat} (final : Final (lexer.answer calls)) (more : Nat) :
    (lexer.after (calls + more)).next = (lexer.after calls).next := by
  induction more with
  | zero => rfl
  | succ more ih =>
      rcases next_cases (lexer.after calls) with ⟨-, again⟩ | ⟨goesOn, -⟩
      · calc (lexer.after (calls + (more + 1))).next
          _ = (lexer.after (calls + more)).next.2.next := rfl
          _ = (lexer.after calls).next.2.next := by rw [ih]
          _ = (lexer.after calls).next := again
      · exact absurd final goesOn

/-- As long as no answer is final, every call has used up a character. -/
theorem final_or_length_le (lexer : Lexer) (calls : Nat) :
    Final (lexer.answer calls) ∨ (lexer.after calls).rest.length + calls ≤ lexer.rest.length := by
  induction calls with
  | zero => exact .inr (Nat.le_refl _)
  | succ calls ih =>
      rcases next_cases (lexer.after calls) with ⟨final, -⟩ | ⟨goesOn, consumes⟩
      · left
        rw [answer, next_after_of_final final 1]
        exact final
      · rcases ih with final | bound
        · exact absurd final goesOn
        · right
          have shorter := consumes.length_lt
          rw [after]
          omega

/-- After as many calls as there are characters, the answer is final. -/
theorem final_of_length_le {calls : Nat} (enough : lexer.rest.length ≤ calls) :
    Final (lexer.answer calls) := by
  rcases final_or_length_le lexer calls with final | bound
  · exact final
  · have empty : (lexer.after calls).rest = [] := List.length_eq_zero_iff.1 (by omega)
    have result : (lexer.after calls).next = (.ok ⟨none, _⟩, _) :=
      next_eq_end.2 ⟨[], [], empty, .empty, .inl rfl, rfl, rfl⟩
    rw [answer, result]
    exact .ended _

/-- Whatever a text is, the calls of a lexer on it come to a last answer. It is the end of the text
or an unknown character, every call gives it that has as many calls in front of it as there are
characters, and every call that does not give it uses up at least one character. -/
theorem answer_settles (source : String) :
    ∃ final, Final final ∧
      (∀ calls, source.length ≤ calls → (ofText source).answer calls = final) ∧
      ∀ calls, (ofText source).answer calls ≠ final →
        Consumes ((ofText source).after calls).rest ((ofText source).after (calls + 1)).rest := by
  have settled {calls : Nat} (enough : source.length ≤ calls) :
      Final ((ofText source).answer calls) :=
    final_of_length_le (by rwa [ofText, String.length_toList])
  have last {calls more : Nat} (final : Final ((ofText source).answer calls)) :
      (ofText source).answer (calls + more) = (ofText source).answer calls := by
    rw [answer, next_after_of_final final, answer]
  refine ⟨(ofText source).answer source.length, settled (Nat.le_refl _), ?_, ?_⟩
  · intro calls enough
    rcases Nat.exists_eq_add_of_le enough with ⟨more, rfl⟩
    exact last (settled (Nat.le_refl _))
  · intro calls unlike
    rcases next_cases ((ofText source).after calls) with ⟨final, -⟩ | ⟨-, consumes⟩
    · apply absurd _ unlike
      rw [← last final, Nat.add_comm]
      exact last (settled (Nat.le_refl _))
    · exact consumes

end MiniPascal.Lexer
