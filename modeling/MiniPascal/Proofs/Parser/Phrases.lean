import MiniPascal.Proofs.Parser.Steps

/-!
# Phrases

A phrase is a rule of the grammar together with the way in which the parser reads it. `Explains`
says what the end of a parsing step tells about the tokens that were taken: if the step succeeds,
they are such a phrase in front of whatever may follow; if it fails, they are the start of one, and
the fault is the token behind them. In both cases the parser has not looked further than to that
token: every other parser with the same tokens up to there ends in the same way. Sequences of steps
are explained by sequences of phrases.
-/

namespace MiniPascal.Parser

variable {α β : Type} {bound bound' : Nat} {parser twin middle rest rest' : Parser}
variable {token : Token} {tokens more after : List Token} {cause : Error}

/-! ### Taking tokens -/

/-- The parser takes the tokens one after another and leaves the parser `rest`. -/
inductive Consumes : Parser → List Token → Parser → Prop where
  | none {parser : Parser} : Consumes parser [] parser
  | some {parser middle rest : Parser} {token : Token} {tokens : List Token} :
      parser.Takes token middle → Consumes middle tokens rest →
      Consumes parser (token :: tokens) rest

/-- The parser takes the tokens one after another, and the lexer fails behind the last of them. -/
inductive Breaks (cause : Error) : Parser → List Token → Prop where
  | here {parser : Parser} {token : Token} :
      parser.current = some token → parser.stream.next.1 = .error cause →
      Breaks cause parser [token]
  | later {parser middle : Parser} {token : Token} {tokens : List Token} :
      parser.Takes token middle → Breaks cause middle tokens → Breaks cause parser (token :: tokens)

theorem Takes.unique {token' : Token} (takes : parser.Takes token rest)
    (takes' : parser.Takes token' rest') : token = token' ∧ rest = rest' := by
  cases takes with
  | token lexeme ahead current stream =>
      cases takes' with
      | token lexeme' ahead' current' stream' => simp_all
      | last line current' stream' => simp_all
  | last line current stream ending =>
      cases takes' with
      | token lexeme' ahead' current' stream' => simp_all
      | last line' current' stream' ending' => simp_all

namespace Consumes

theorem append (one : parser.Consumes tokens middle) (two : middle.Consumes more rest) :
    parser.Consumes (tokens ++ more) rest := by
  induction one with
  | none => exact two
  | some takes _ ih => exact .some takes (ih two)

theorem breaks (one : parser.Consumes tokens middle) (two : Breaks cause middle more) :
    Breaks cause parser (tokens ++ more) := by
  induction one with
  | none => exact two
  | some takes _ ih => exact .later takes (ih two)

theorem split (consumes : parser.Consumes (tokens ++ more) rest) :
    ∃ middle, parser.Consumes tokens middle ∧ middle.Consumes more rest := by
  induction tokens generalizing parser with
  | nil => exact ⟨parser, .none, consumes⟩
  | cons token tokens ih =>
      cases consumes with
      | some takes consumes =>
          obtain ⟨middle, one, two⟩ := ih consumes
          exact ⟨middle, .some takes one, two⟩

/-- What stands in front of a parser is what it takes, or what it leaves if it takes nothing. -/
theorem current_eq (consumes : parser.Consumes tokens rest) :
    tokens.head?.or rest.current = parser.current := by
  cases consumes with
  | none => rfl
  | some takes _ => exact takes.current.symm

/-- Parsers that take the same tokens and then see the same token see the same token at once. -/
theorem same_current (consumes : parser.Consumes tokens rest)
    (consumes' : twin.Consumes tokens rest') (same : rest'.current = rest.current) :
    twin.current = parser.current := by
  rw [← consumes.current_eq, ← consumes'.current_eq, same]

theorem reads (consumes : parser.Consumes tokens rest) (reads : rest.Reads more) :
    parser.Reads (tokens ++ more) := by
  induction consumes with
  | none => exact reads
  | some takes _ ih => exact takes.reads (ih reads)

end Consumes

theorem Breaks.head? (breaks : Breaks cause parser tokens) : tokens.head? = parser.current := by
  cases breaks with
  | here current _ => exact current.symm
  | later takes _ => exact takes.current.symm

/-! ### Rules with their readers -/

/-- Tokens, or the end of the text, that may stand behind every phrase: they neither turn a name
into a call nor belong to a choice. -/
def Clear : Option Token → Prop
  | some .leftParen => False
  | some .kwElse => False
  | _ => True

theorem not_clear_leftParen : ¬Clear (some .leftParen) := id

theorem not_clear_kwElse : ¬Clear (some .kwElse) := id

/-- A rule of the grammar with the way in which the parser reads it, and with an instance. -/
structure Phrase (α : Type) where
  /-- The tokens in front start with the phrase; the others are behind it. -/
  derives : List Token → α → List Token → Prop
  /-- The parser reads the phrase and leaves another parser. -/
  gives : Parser → α → Parser → Prop
  unique : ∀ {parser value rest value' rest'}, gives parser value rest →
    gives parser value' rest' → value = value' ∧ rest = rest'
  filler : List Token
  filling : α
  fills : ∀ after, Clear after.head? → derives (filler ++ after) filling after

/-- The phrase of a rule, which a function of the parser reads. -/
def Phrase.rule {size : Parser → Nat} (derives : List Token → α → List Token → Prop)
    (reader : (parser : Parser) → Parsed α (size parser)) (filler : List Token) (filling : α)
    (fills : ∀ after, Clear after.head? → derives (filler ++ after) filling after) : Phrase α where
  derives := derives
  gives parser := (reader parser).Gives
  unique := by
    rintro parser value rest value' rest' ⟨below, equal⟩ ⟨below', equal'⟩
    cases equal.symm.trans equal'
    exact ⟨rfl, rfl⟩
  filler := filler
  filling := filling
  fills := fills

@[simp] theorem Phrase.gives_rule {size : Parser → Nat}
    {derives : List Token → α → List Token → Prop}
    {reader : (parser : Parser) → Parsed α (size parser)} {filler : List Token} {filling value : α}
    {fills : ∀ after, Clear after.head? → derives (filler ++ after) filling after} :
    (Phrase.rule derives reader filler filling fills).gives parser value rest ↔
      (reader parser).Gives value rest := .rfl

/-- The tokens can be completed to the phrase. -/
def Phrase.Opens (phrase : Phrase α) (tokens : List Token) : Prop :=
  ∃ more value, ∀ after, Clear after.head? → phrase.derives (tokens ++ (more ++ after)) value after

theorem Phrase.opens_nil (phrase : Phrase α) : phrase.Opens [] :=
  ⟨phrase.filler, phrase.filling, phrase.fills⟩

/-- What the end of a step says about the tokens that the parser has taken. -/
inductive Explains (phrase : Phrase α) (parser : Parser) : Parsed α bound → Prop where
  | ok {value : α} {rest : Parser} {below : rest.size < bound} (tokens : List Token)
      (consumes : parser.Consumes tokens rest)
      (covers : ∀ after, after.head? = rest.current ∨ Clear after.head? →
        phrase.derives (tokens ++ after) value after)
      (echoes : ∀ twin rest', twin.Consumes tokens rest' → rest'.current = rest.current →
        phrase.gives twin value rest') :
      Explains phrase parser (.ok value rest below)
  | refused {expected : String} {rest : Parser} (tokens : List Token)
      (consumes : parser.Consumes tokens rest) (opens : phrase.Opens tokens)
      (echoes : ∀ twin rest', twin.Consumes tokens rest' → rest'.current = rest.current →
        ∀ value behind, ¬phrase.gives twin value behind) :
      Explains phrase parser (.error (.unexpected expected rest.found rest.line) rest)
  | broken {cause : Error} {rest : Parser} (tokens : List Token)
      (breaks : Breaks cause parser tokens) (opens : phrase.Opens tokens) :
      Explains phrase parser (.error cause rest)

namespace Explains

variable {phrase phrase' : Phrase α} {step : Parsed α bound}

theorem weaken (explained : Explains phrase parser step) (le : bound ≤ bound') :
    Explains phrase parser (step.weaken le) := by
  cases explained with
  | ok tokens consumes covers echoes => exact .ok tokens consumes covers echoes
  | refused tokens consumes opens echoes => exact .refused tokens consumes opens echoes
  | broken tokens breaks opens => exact .broken tokens breaks opens

/-- A step that is explained by a phrase is explained by every wider phrase that parsers with the
same token in front read in the same way. -/
theorem mono (phrase : Phrase α) (explained : Explains phrase parser step)
    (derives : ∀ {tokens value after}, phrase.derives tokens value after →
      phrase'.derives tokens value after)
    (gives : ∀ {twin value rest}, twin.current = parser.current →
      (phrase'.gives twin value rest ↔ phrase.gives twin value rest)) :
    Explains phrase' parser step := by
  have opened {tokens : List Token} (opens : phrase.Opens tokens) : phrase'.Opens tokens := by
    obtain ⟨more, value, completed⟩ := opens
    exact ⟨more, value, fun after clear => derives (completed after clear)⟩
  cases explained with
  | ok tokens consumes covers echoes =>
      refine .ok tokens consumes (fun after follows => derives (covers after follows)) ?_
      intro twin rest' consumes' same
      exact (gives (consumes.same_current consumes' same)).mpr (echoes twin rest' consumes' same)
  | refused tokens consumes opens echoes =>
      refine .refused tokens consumes (opened opens) ?_
      intro twin rest' consumes' same value behind given
      exact echoes twin rest' consumes' same value behind
        ((gives (consumes.same_current consumes' same)).mp given)
  | broken tokens breaks opens => exact .broken tokens breaks (opened opens)

/-- A step of a function of the parser is explained by the phrase of its rule if it is explained by
a phrase that says what the function does. -/
theorem rule {size : Parser → Nat} {derives : List Token → α → List Token → Prop}
    {reader : (parser : Parser) → Parsed α (size parser)} {filler : List Token} {filling : α}
    {fills : ∀ after, Clear after.head? → derives (filler ++ after) filling after}
    (phrase : Phrase α) (explained : Explains phrase parser step)
    (wider : ∀ {tokens value after}, phrase.derives tokens value after →
      derives tokens value after)
    (gives : ∀ {twin value rest}, twin.current = parser.current →
      ((reader twin).Gives value rest ↔ phrase.gives twin value rest)) :
    Explains (.rule derives reader filler filling fills) parser step :=
  explained.mono phrase wider gives

end Explains

/-! ### Steps that take nothing -/

/-- The phrase of no tokens. -/
def Phrase.done (value : α) : Phrase α where
  derives tokens result after := tokens = after ∧ value = result
  gives parser result rest := value = result ∧ parser = rest
  unique := by
    rintro parser _ _ _ _ ⟨rfl, rfl⟩ ⟨rfl, rfl⟩
    exact ⟨rfl, rfl⟩
  filler := []
  filling := value
  fills _ _ := ⟨rfl, rfl⟩

@[simp] theorem Phrase.gives_done {value value' : α} :
    (Phrase.done value).gives parser value' rest ↔ value = value' ∧ parser = rest := .rfl

/-- A step that takes nothing is a phrase of no tokens in front of the same token. -/
theorem explains_nothing {phrase : Phrase α} {value : α} {below : parser.size < bound}
    (derives : ∀ {after : List Token}, after.head? = parser.current ∨ Clear after.head? →
      phrase.derives after value after)
    (gives : ∀ {twin}, twin.current = parser.current → phrase.gives twin value twin) :
    Explains phrase parser (.ok value parser below) := by
  refine .ok [] .none (fun after => derives) ?_
  intro twin rest' consumes same
  cases consumes
  exact gives same

theorem explains_done {value : α} {below : parser.size < bound} :
    Explains (.done value) parser (.ok value parser below) :=
  explains_nothing (fun _ => ⟨rfl, rfl⟩) fun _ => ⟨rfl, rfl⟩

/-- A parser refuses the token in front if no parser reads a phrase that starts with it. -/
theorem explains_unexpected {phrase : Phrase α} {expected : String}
    (refuses : ∀ {twin value rest}, twin.current = parser.current → ¬phrase.gives twin value rest) :
    Explains phrase parser (parser.unexpected expected : Parsed α bound) := by
  refine .refused [] .none phrase.opens_nil ?_
  intro twin rest' consumes same value behind
  exact refuses (Consumes.none.same_current consumes same)

/-! ### Taking a token and going on -/

/-- A token with a value, and then a phrase that may depend on the value. -/
def Phrase.take (select : Token → Option α) (sample : Token) {value : α}
    (selected : select sample = some value) (next : α → Phrase β) : Phrase β where
  derives tokens result after := ∃ token value, select token = some value ∧
    ∃ rest, tokens = token :: rest ∧ (next value).derives rest result after
  gives parser result rest := ∃ value middle, parser.Accepts select value middle ∧
    (next value).gives middle result rest
  unique := by
    rintro parser result rest result' rest' ⟨value, middle, ⟨token, valued, takes⟩, gives⟩
      ⟨value', middle', ⟨token', valued', takes'⟩, gives'⟩
    obtain ⟨rfl, rfl⟩ := takes.unique takes'
    obtain rfl : value = value' := Option.some.inj (valued.symm.trans valued')
    exact (next value).unique gives gives'
  filler := sample :: (next value).filler
  filling := (next value).filling
  fills after clear := ⟨sample, value, selected, _, rfl, (next value).fills after clear⟩

/-- A given token, and then a phrase. -/
def Phrase.expect (token : Token) (next : Phrase β) : Phrase β where
  derives tokens result after := ∃ rest, tokens = token :: rest ∧ next.derives rest result after
  gives parser result rest := ∃ middle, parser.Takes token middle ∧ next.gives middle result rest
  unique := by
    rintro parser result rest result' rest' ⟨middle, takes, gives⟩ ⟨middle', takes', gives'⟩
    obtain ⟨-, rfl⟩ := takes.unique takes'
    exact next.unique gives gives'
  filler := token :: next.filler
  filling := next.filling
  fills after clear := ⟨_, rfl, next.fills after clear⟩

@[simp] theorem Phrase.gives_expect {next : Phrase β} {result : β} :
    (Phrase.expect token next).gives parser result rest ↔
      ∃ middle, parser.Takes token middle ∧ next.gives middle result rest := .rfl

section Taking

variable {select : Token → Option α} {sample : Token} {sampled value : α}
variable {selected : select sample = some sampled} {next : α → Phrase β}

theorem Phrase.Opens.take (opens : (next value).Opens tokens) (valued : select token = some value) :
    (Phrase.take select sample selected next).Opens (token :: tokens) := by
  obtain ⟨more, result, completed⟩ := opens
  refine ⟨more, result, ?_⟩
  intro after clear
  exact ⟨token, value, valued, _, rfl, completed after clear⟩

/-- Taking a token fails only if the lexer does. -/
theorem accept?_eq_error (accepted : parser.accept? select = some (.error cause rest)) :
    ∃ token value, parser.current = some token ∧ select token = some value ∧
      parser.stream.next.1 = .error cause := by
  unfold accept? at accepted
  split at accepted
  next => cases accepted
  next token current =>
    obtain ⟨value, valued, step⟩ := Option.map_eq_some_iff.mp accepted
    refine ⟨token, value, current, valued, ?_⟩
    split at step
    next => cases step
    next stream =>
      cases step
      simp [TokenStream.next, stream]
    next stream =>
      split at step
      next => cases step
      next ending =>
        cases step
        simp [TokenStream.next, stream, ending, Except.map]

/-- A token is taken, and what follows is explained. -/
theorem explains_accepted {step : Parsed α parser.size}
    (accepted : parser.accept? select = some step)
    {continuation : (value : α) → (rest : Parser) → rest.size < parser.size → Parsed β bound}
    (goesOn : ∀ value rest below, Explains (next value) rest (continuation value rest below)) :
    Explains (.take select sample selected next) parser (step.bind continuation) := by
  -- A token is no phrase to which `Explains.bind` applies: what follows it need not be clear.
  cases step with
  | error cause rest =>
      obtain ⟨token, value, current, valued, failed⟩ := accept?_eq_error accepted
      exact .broken [token] (.here current failed) ((next value).opens_nil.take valued)
  | ok value middle below =>
      obtain ⟨token, valued, takes⟩ := (gives_of_accept? accepted).mp ⟨below, rfl⟩
      have explained := goesOn value middle below
      change Explains _ parser (continuation value middle below)
      generalize continuation value middle below = behind at explained
      cases explained with
      | ok tokens consumes covers echoes =>
          refine .ok (token :: tokens) (.some takes consumes) ?_ ?_
          · intro after follows
            exact ⟨token, value, valued, _, rfl, covers after follows⟩
          · intro twin rest' consumes' same
            cases consumes' with
            | some takes' consumes' =>
                exact ⟨value, _, ⟨token, valued, takes'⟩, echoes _ rest' consumes' same⟩
      | refused tokens consumes opens echoes =>
          refine .refused (token :: tokens) (.some takes consumes) (opens.take valued) ?_
          rintro twin rest' consumes' same result behind
            ⟨value', middle', ⟨token', valued', takes''⟩, gives⟩
          cases consumes' with
          | some takes' consumes' =>
              obtain ⟨rfl, rfl⟩ := takes'.unique takes''
              obtain rfl : value = value' := Option.some.inj (valued.symm.trans valued')
              exact echoes _ rest' consumes' same result behind gives
      | broken tokens breaks opens =>
          exact .broken (token :: tokens) (.later takes breaks) (opens.take valued)

/-- A token is asked for, and what follows is explained. -/
theorem explains_require {expected : String}
    {continuation : (value : α) → (rest : Parser) → rest.size < parser.size → Parsed β bound}
    (goesOn : ∀ value rest below, Explains (next value) rest (continuation value rest below)) :
    Explains (.take select sample selected next) parser
      ((parser.require expected select).bind continuation) := by
  unfold require
  cases accepted : parser.accept? select with
  | some step => exact explains_accepted accepted goesOn
  | none =>
      apply explains_unexpected
      rintro twin result rest same ⟨value, middle, ⟨token, valued, takes⟩, -⟩
      rw [accept?_eq_none, ← same, takes.current, Option.bind_some, valued] at accepted
      cases accepted

theorem explains_acceptToken {next : Phrase β} {step : Parsed Unit parser.size}
    (accepted : parser.acceptToken? token = some step)
    {continuation : (value : Unit) → (rest : Parser) → rest.size < parser.size → Parsed β bound}
    (goesOn : ∀ rest below, Explains next rest (continuation () rest below)) :
    Explains (.expect token next) parser (step.bind continuation) := by
  refine .mono (.take (fun current => if current = token then some () else none) token
    (if_pos rfl) fun _ => next) (explains_accepted accepted fun _ => goesOn) ?_ ?_
  · rintro tokens result after ⟨token', value, selected, rest, rfl, derived⟩
    obtain ⟨rfl, -⟩ := Option.ite_none_right_eq_some.mp selected
    exact ⟨rest, rfl, derived⟩
  · intro twin result rest _
    simp [Phrase.expect, Phrase.take, Accepts]

theorem explains_expect {next : Phrase β}
    {continuation : (value : Unit) → (rest : Parser) → rest.size < parser.size → Parsed β bound}
    (goesOn : ∀ rest below, Explains next rest (continuation () rest below)) :
    Explains (.expect token next) parser ((parser.expect token).bind continuation) := by
  unfold expect
  cases accepted : parser.acceptToken? token with
  | some step => exact explains_acceptToken accepted goesOn
  | none =>
      apply explains_unexpected
      rintro twin result rest same ⟨middle, takes, -⟩
      exact acceptToken?_eq_none.mp accepted (same ▸ takes.current)

theorem explains_last {value : β} :
    Explains (.expect token (.done value)) parser ((parser.expect token).map fun _ => value) :=
  explains_expect fun _ _ => explains_done

end Taking

/-! ### One phrase after another -/

/-- A phrase, and then a phrase that may depend on its value. -/
def Phrase.seq (first : Phrase α) (second : α → Phrase β)
    (clear : ∀ value after, Clear after.head? → Clear ((second value).filler ++ after).head? := by
      first | exact id fun _ _ _ => trivial | exact id fun _ _ follows => follows) :
    Phrase β where
  derives tokens result after := ∃ value middle, first.derives tokens value middle ∧
    (second value).derives middle result after
  gives parser result rest := ∃ value middle, first.gives parser value middle ∧
    (second value).gives middle result rest
  unique := by
    rintro parser result rest result' rest' ⟨value, middle, one, two⟩ ⟨value', middle', one', two'⟩
    obtain ⟨rfl, rfl⟩ := first.unique one one'
    exact (second value).unique two two'
  filler := first.filler ++ (second first.filling).filler
  filling := (second first.filling).filling
  fills after follows := by
    rw [List.append_assoc]
    exact ⟨first.filling, _, first.fills _ (clear first.filling after follows),
      (second first.filling).fills after follows⟩

section Sequence

variable {first : Phrase α} {second : α → Phrase β}
variable {clear : ∀ value after, Clear after.head? → Clear ((second value).filler ++ after).head?}

@[simp] theorem Phrase.gives_seq {result : β} :
    (first.seq second clear).gives parser result rest ↔
      ∃ value middle, first.gives parser value middle ∧ (second value).gives middle result rest :=
  .rfl

/-- Tokens that open the first phrase open the sequence. -/
theorem Phrase.Opens.seq (opens : first.Opens tokens) : (first.seq second clear).Opens tokens := by
  obtain ⟨more, value, completed⟩ := opens
  refine ⟨more ++ (second value).filler, (second value).filling, ?_⟩
  intro after follows
  rw [List.append_assoc]
  exact ⟨value, _, completed _ (clear value after follows), (second value).fills after follows⟩

/-- The first phrase and tokens that open the second one open the sequence. -/
theorem Phrase.Opens.behind {value : α}
    (covers : ∀ after, after.head? = middle.current ∨ Clear after.head? →
      first.derives (tokens ++ after) value after)
    (starts : ∀ token, more.head? = some token → middle.current = some token)
    (opens : (second value).Opens more) : (first.seq second clear).Opens (tokens ++ more) := by
  cases more with
  | nil =>
      -- Nothing of the second phrase is there yet, so that any instance of it will do.
      refine ⟨(second value).filler, (second value).filling, ?_⟩
      intro after follows
      rw [List.append_nil]
      exact ⟨value, _, covers _ (.inr (clear value after follows)),
        (second value).fills after follows⟩
  | cons token more =>
      obtain ⟨final, result, completed⟩ := opens
      refine ⟨final, result, ?_⟩
      intro after follows
      rw [List.append_assoc]
      exact ⟨value, _, covers _ (.inl (starts token rfl).symm), completed after follows⟩

/-- A phrase is read, and what follows is explained. -/
theorem Explains.bind {step : Parsed α bound}
    {continuation : (value : α) → (rest : Parser) → rest.size < bound → Parsed β bound'}
    (one : Explains first parser step)
    (two : ∀ value rest below, Explains (second value) rest (continuation value rest below)) :
    Explains (first.seq second clear) parser (step.bind continuation) := by
  cases one with
  | refused tokens consumes opens echoes =>
      refine .refused tokens consumes opens.seq ?_
      rintro twin rest' consumes' same result behind ⟨value, middle, gives, -⟩
      exact echoes twin rest' consumes' same value middle gives
  | broken tokens breaks opens => exact .broken tokens breaks opens.seq
  | @ok value middle below tokens consumes covers echoes =>
      have explained := two value middle below
      change Explains _ parser (continuation value middle below)
      generalize continuation value middle below = behind at explained
      cases explained with
      | ok more consumesMore coversMore echoesMore =>
          refine .ok (tokens ++ more) (consumes.append consumesMore) ?_ ?_
          · intro after follows
            rw [List.append_assoc]
            refine ⟨value, more ++ after, covers _ ?_, coversMore after follows⟩
            -- Behind the first phrase is what the second one takes, or else what it leaves.
            rw [List.head?_append, ← consumesMore.current_eq]
            cases more with
            | nil => exact follows
            | cons token more => exact .inl rfl
          · intro twin rest' consumes' same
            obtain ⟨middle', one', two'⟩ := consumes'.split
            have same' := consumesMore.same_current two' same
            exact ⟨value, middle', echoes twin middle' one' same',
              echoesMore middle' rest' two' same⟩
      | refused more consumesMore opens echoesMore =>
          refine .refused (tokens ++ more) (consumes.append consumesMore)
            (.behind covers (fun token head => ?_) opens) ?_
          · rw [← consumesMore.current_eq, head, Option.some_or]
          · rintro twin rest' consumes' same result behind ⟨value', middle'', gives, givesMore⟩
            obtain ⟨middle', one', two'⟩ := consumes'.split
            have same' := consumesMore.same_current two' same
            obtain ⟨rfl, rfl⟩ := first.unique (echoes twin middle' one' same') gives
            exact echoesMore middle' rest' two' same result behind givesMore
      | broken more breaks opens =>
          refine .broken (tokens ++ more) (consumes.breaks breaks)
            (.behind covers (fun token head => ?_) opens)
          rw [← breaks.head?, head]

theorem Explains.map {step : Parsed α bound} (explained : Explains first parser step)
    (change : α → β) :
    Explains (first.seq fun value => .done (change value)) parser (step.map change) :=
  explained.bind fun _ _ _ => explains_done

end Sequence

/-! ### Choosing by the token in front -/

/-- Nothing, in front of other tokens than the given one. -/
def Phrase.stop (token : Token) (unclear : ¬Clear (some token)) (value : α) : Phrase α where
  derives tokens result after := after.head? ≠ some token ∧ tokens = after ∧ value = result
  gives := (Phrase.done value).gives
  unique := (Phrase.done value).unique
  filler := []
  filling := value
  fills _ clear := ⟨fun head => unclear (head ▸ clear), rfl, rfl⟩

@[simp] theorem Phrase.gives_stop {unclear : ¬Clear (some token)} {value value' : α} :
    (Phrase.stop token unclear value).gives parser value' rest ↔ value = value' ∧ parser = rest :=
  .rfl

theorem explains_stop {unclear : ¬Clear (some token)} {value : α} {below : parser.size < bound}
    (other : parser.current ≠ some token) :
    Explains (.stop token unclear value) parser (.ok value parser below) := by
  apply explains_nothing
  · rintro after (same | clear)
    · exact ⟨same ▸ other, rfl, rfl⟩
    · exact ⟨fun head => unclear (head ▸ clear), rfl, rfl⟩
  · intro twin _
    exact ⟨rfl, rfl⟩

/-- One of two phrases, of which the parser chooses by the token in front. -/
def Phrase.choose (test : Option Token → Prop) (first second : Phrase α) : Phrase α where
  derives tokens value after := first.derives tokens value after ∨ second.derives tokens value after
  gives parser value rest :=
    (test parser.current ∧ first.gives parser value rest) ∨
      (¬test parser.current ∧ second.gives parser value rest)
  unique := by
    rintro parser value rest value' rest' (⟨holds, gives⟩ | ⟨fails, gives⟩)
      (⟨holds', gives'⟩ | ⟨fails', gives'⟩)
    · exact first.unique gives gives'
    · exact absurd holds fails'
    · exact absurd holds' fails
    · exact second.unique gives gives'
  filler := first.filler
  filling := first.filling
  fills after clear := .inl (first.fills after clear)

section Choice

variable {test : Option Token → Prop} {first second : Phrase α} {step : Parsed α bound}

@[simp] theorem Phrase.gives_choose {value : α} :
    (Phrase.choose test first second).gives parser value rest ↔
      (test parser.current ∧ first.gives parser value rest) ∨
        (¬test parser.current ∧ second.gives parser value rest) := .rfl

/-- The parser reads a choice between a token with a value and something else by trying to take the
token. -/
theorem Phrase.gives_choose_take {select : Token → Option β} {sample : Token} {sampled : β}
    {selected : select sample = some sampled} {next : β → Phrase α} {value : α} :
    (Phrase.choose (·.bind select = none) first (.take select sample selected next)).gives parser
        value rest ↔
      (parser.accept? select = none ∧ first.gives parser value rest) ∨
      ∃ chosen middle, parser.Accepts select chosen middle ∧
        (next chosen).gives middle value rest := by
  rw [Phrase.gives_choose, accept?_eq_none]
  refine or_congr .rfl (and_iff_right_of_imp ?_)
  rintro ⟨chosen, middle, ⟨token, valued, takes⟩, -⟩
  simp [takes.current, valued]

theorem Explains.inl (explained : Explains first parser step) (holds : test parser.current) :
    Explains (.choose test first second) parser step := by
  refine .mono first explained .inl ?_
  intro twin value rest same
  simp [Phrase.choose, same, holds]

theorem Explains.inr (explained : Explains second parser step) (fails : ¬test parser.current) :
    Explains (.choose test first second) parser step := by
  refine .mono second explained .inr ?_
  intro twin value rest same
  simp [Phrase.choose, same, fails]

end Choice

theorem bind_ne_none_of_accept? {select : Token → Option α} {step : Parsed α parser.size}
    (accepted : parser.accept? select = some step) : parser.current.bind select ≠ none := by
  rw [ne_eq, ← accept?_eq_none, accepted]
  exact Option.some_ne_none step

theorem current_of_acceptToken? {step : Parsed Unit parser.size}
    (accepted : parser.acceptToken? token = some step) : parser.current = some token := by
  apply Decidable.byContradiction
  intro other
  rw [acceptToken?_eq_none.mpr other] at accepted
  cases accepted

/-- A step that first tries to take a token succeeds in one of two ways. -/
theorem gives_acceptToken? {absent : Parsed α bound} {value : α}
    {continuation : Unit → (rest : Parser) → rest.size < parser.size → Parsed α bound} :
    Parsed.Gives (match parser.acceptToken? token with
      | none => absent
      | some step => step.bind continuation) value rest ↔
    (parser.current ≠ some token ∧ absent.Gives value rest) ∨
      (parser.current = some token ∧ ∃ middle, ∃ takes : parser.Takes token middle,
        (continuation () middle takes.size_lt).Gives value rest) := by
  cases accepted : parser.acceptToken? token with
  | none => simp [acceptToken?_eq_none.mp accepted]
  | some step =>
      have taken {middle : Parser} : step.Gives () middle ↔ parser.Takes token middle :=
        gives_of_acceptToken? accepted
      simp only [current_of_acceptToken? accepted, ne_eq, not_true_eq_false, false_and, true_and,
        false_or, Parsed.gives_bind]
      constructor
      · rintro ⟨_, middle, gives, goesOn⟩
        exact ⟨middle, taken.mp gives, goesOn⟩
      · rintro ⟨middle, takes, goesOn⟩
        exact ⟨(), middle, taken.mpr takes, goesOn⟩

end MiniPascal.Parser
