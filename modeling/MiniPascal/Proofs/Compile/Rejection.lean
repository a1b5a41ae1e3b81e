import MiniPascal.Proofs.Compile.Labels

/-!
# When and how compiling fails

A program is rejected for the first procedure that repeats a name, or else for the first call that
names no procedure or gives too few arguments, in the order in which its expressions are listed.
There is no other reason: the errors that guard the shape of the stack are never met.
-/

namespace MiniPascal

/-- All expressions of a program: those of its main statement, then those of each procedure. -/
def Program.expressions (program : Program) : List Expr :=
  program.body.expressions ++
    program.procedures.flatMap fun procedure => procedure.body.expressions

/-- What is wrong with an expression in a program with these procedures. -/
inductive CallFault (procedures : List Procedure) : Expr → Error → Prop where
  | undefined {name : String} {args : List Expr}
      (unknown : ∀ procedure ∈ procedures, procedure.name ≠ name) :
      CallFault procedures (.call name args) (.undefinedProcedure name)
  | arity {name : String} {args : List Expr} {procedure : Procedure}
      (known : procedure ∈ procedures) (called : procedure.name = name)
      (few : args.length < procedure.params.length) :
      CallFault procedures (.call name args)
        (.arity name procedure.params.length args.length)

/-- What a program needs to be compiled. -/
structure Program.Callable (program : Program) : Prop where
  distinct : (program.procedures.map Procedure.name).Nodup
  calls : ∀ name args, .call name args ∈ program.expressions →
    ∃ procedure ∈ program.procedures,
      procedure.name = name ∧ procedure.params.length ≤ args.length

/-- Why a program has no assembly. -/
inductive Program.Rejected (program : Program) : Error → Prop where
  /-- The first procedure that has the name of one before it. -/
  | repeated {before after : List Procedure} {procedure : Procedure}
      (listed : program.procedures = before ++ procedure :: after)
      (distinct : (before.map Procedure.name).Nodup)
      (known : procedure.name ∈ before.map Procedure.name) :
      program.Rejected
        (.generation s!"procedure '{procedure.name}' is declared more than once")
  /-- The first call at fault, in a program whose procedures have different names. -/
  | call {before after : List Expr} {part : Expr} {cause : Error}
      (distinct : (program.procedures.map Procedure.name).Nodup)
      (listed : program.expressions = before ++ part :: after)
      (sound : ∀ earlier ∈ before, ∀ cause, ¬CallFault program.procedures earlier cause)
      (fault : CallFault program.procedures part cause) :
      program.Rejected cause

variable {program : Program} {procedures : List Procedure} {cause : Error}

/-! ## Repeated names -/

theorem repeated?_cons (known rest : List Procedure) (first : Procedure) :
    repeated? known (first :: rest) =
      if first.name ∈ known.map Procedure.name then some (.duplicateProcedure first.name)
      else repeated? (first :: known) rest := by
  simp [repeated?]

/-- Registering procedures fails at the first one with a name that is known by then. -/
theorem repeated?_eq_some {known : List Procedure} :
    repeated? known procedures = some cause ↔
      ∃ before procedure after, procedures = before ++ procedure :: after ∧
        repeated? known before = none ∧
        procedure.name ∈ (known ++ before).map Procedure.name ∧
        .duplicateProcedure procedure.name = cause := by
  induction procedures generalizing known with
  | nil => simp [repeated?]
  | cons first rest ih =>
      rw [repeated?_cons]
      by_cases repeats : first.name ∈ known.map Procedure.name
      · rw [if_pos repeats]
        constructor
        · intro failed
          exact ⟨[], first, rest, rfl, rfl, by simpa using repeats, Option.some.inj failed⟩
        · rintro ⟨before, procedure, after, listed, unrepeated, -, rfl⟩
          cases before with
          | nil => rw [(List.cons.inj listed).1]
          | cons other before =>
              -- The procedure in front would have been refused before.
              rw [← (List.cons.inj listed).1, repeated?_cons, if_pos repeats] at unrepeated
              cases unrepeated
      · rw [if_neg repeats, ih]
        constructor
        · rintro ⟨before, procedure, after, rfl, unrepeated, repeated, same⟩
          refine ⟨first :: before, procedure, after, rfl, ?_, ?_, same⟩
          · rw [repeated?_cons, if_neg repeats]
            exact unrepeated
          · exact (List.perm_middle.map Procedure.name).mem_iff.2 repeated
        · rintro ⟨before, procedure, after, listed, unrepeated, repeated, same⟩
          cases before with
          | nil =>
              rw [← (List.cons.inj listed).1, List.append_nil] at repeated
              exact absurd repeated repeats
          | cons other before =>
              obtain ⟨rfl, rfl⟩ := List.cons.inj listed
              rw [repeated?_cons, if_neg repeats] at unrepeated
              exact ⟨before, procedure, after, rfl, unrepeated,
                (List.perm_middle.map Procedure.name).mem_iff.1 repeated, same⟩

theorem repeated?_nil_eq_none :
    repeated? [] procedures = none ↔ (procedures.map Procedure.name).Nodup := by
  simp [repeated?_eq_none]

/-! ## Calls at fault -/

/-- Among procedures with different names the one of a name is found from either end. -/
theorem find?_reverse_eq_some (distinct : (procedures.map Procedure.name).Nodup)
    {name : String} {procedure : Procedure} :
    procedures.reverse.find? (·.name = name) = some procedure ↔
      procedure ∈ procedures ∧ procedure.name = name := by
  have called {other : Procedure}
      (found : procedures.reverse.find? (·.name = name) = some other) :
      other ∈ procedures ∧ other.name = name := by
    have same := List.find?_some found
    exact ⟨List.mem_reverse.1 (List.mem_of_find?_eq_some found), of_decide_eq_true same⟩
  constructor
  · exact called
  · rintro ⟨member, same⟩
    cases found : procedures.reverse.find? (·.name = name) with
    | none =>
        have missed := List.find?_eq_none.1 found procedure (List.mem_reverse.2 member)
        simp [same] at missed
    | some other =>
        have listed := called found
        rw [List.inj_on_of_nodup_map distinct listed.1 member (listed.2.trans same.symm)]

/-- A call of a known procedure is at fault only if it gives too few arguments. -/
theorem callFault_of_known (distinct : (procedures.map Procedure.name).Nodup)
    {procedure : Procedure} (known : procedure ∈ procedures) {args : List Expr} :
    CallFault procedures (.call procedure.name args) cause ↔
      args.length < procedure.params.length ∧
        .arity procedure.name procedure.params.length args.length = cause := by
  constructor
  · intro fault
    cases fault with
    | undefined unknown => exact absurd rfl (unknown procedure known)
    | arity known' called few =>
        cases List.inj_on_of_nodup_map distinct known' known called
        exact ⟨few, rfl⟩
  · intro few
    rw [← few.2]
    exact .arity known rfl few.1

/-- The generator sees a fault exactly where there is one. -/
theorem fault?_eq_some (distinct : (procedures.map Procedure.name).Nodup) {part : Expr} :
    part.fault? procedures.reverse = some cause ↔ CallFault procedures part cause := by
  cases part with
  | call name args =>
      rw [Expr.fault?]
      cases found : procedures.reverse.find? (·.name = name) with
      | none =>
          have unknown : ∀ procedure ∈ procedures, procedure.name ≠ name := by
            simpa using found
          constructor
          · intro failed
            cases failed
            exact .undefined unknown
          · intro fault
            cases fault with
            | undefined => rfl
            | arity known called => exact absurd called (unknown _ known)
      | some procedure =>
          have listed := (find?_reverse_eq_some distinct).1 found
          rw [← listed.2, callFault_of_known distinct listed.1]
          simp
  | num | var | binary | compare =>
      constructor
      · intro failed
        cases failed
      · intro fault
        cases fault

/-- An expression has no fault exactly if, being a call, it gives a procedure of the program
enough arguments. -/
theorem not_callFault (distinct : (procedures.map Procedure.name).Nodup) {part : Expr} :
    (∀ cause, ¬CallFault procedures part cause) ↔
      ∀ name args, part = .call name args → ∃ procedure ∈ procedures,
        procedure.name = name ∧ procedure.params.length ≤ args.length := by
  constructor
  · intro sound name args same
    subst same
    by_contra missing
    by_cases known : ∃ procedure ∈ procedures, procedure.name = name
    · obtain ⟨procedure, listed, called⟩ := known
      apply sound
      apply CallFault.arity listed called
      by_contra enough
      exact missing ⟨procedure, listed, called, Nat.le_of_not_lt enough⟩
    · apply sound
      apply CallFault.undefined
      intro procedure listed called
      exact known ⟨procedure, listed, called⟩
  · intro callable cause fault
    cases fault with
    | undefined unknown =>
        obtain ⟨procedure, listed, called, -⟩ := callable _ _ rfl
        exact unknown procedure listed called
    | arity known called few =>
        obtain ⟨procedure, listed, called', enough⟩ := callable _ _ rfl
        cases List.inj_on_of_nodup_map distinct listed known (called'.trans called.symm)
        exact absurd few (Nat.not_lt_of_le enough)

/-! ## The outcome of compiling -/

theorem fault?_eq (program : Program) :
    program.fault? = (repeated? [] program.procedures).or
      (firstFault program.procedures.reverse program.expressions) :=
  rfl

/-- A program can be compiled exactly when nothing is wrong with it. -/
theorem fault?_eq_none_iff : program.fault? = none ↔ program.Callable := by
  rw [fault?_eq, Option.or_eq_none_iff, repeated?_nil_eq_none, firstFault,
    List.findSome?_eq_none_iff]
  constructor
  · rintro ⟨distinct, sound⟩
    refine ⟨distinct, fun name args listed => ?_⟩
    apply (not_callFault distinct).1 _ name args rfl
    intro cause fault
    rw [← fault?_eq_some distinct, sound _ listed] at fault
    cases fault
  · intro callable
    refine ⟨callable.distinct, fun part listed => ?_⟩
    rw [Option.eq_none_iff_forall_ne_some]
    intro cause failed
    rw [fault?_eq_some callable.distinct] at failed
    revert cause
    apply (not_callFault callable.distinct).2
    intro name args same
    exact callable.calls name args (same ▸ listed)

/-- A program is at fault for the reason for which it is rejected. -/
theorem fault?_eq_some_iff : program.fault? = some cause ↔ program.Rejected cause := by
  rw [fault?_eq, Option.or_eq_some_iff, repeated?_eq_some, repeated?_nil_eq_none, firstFault,
    List.findSome?_eq_some_iff]
  constructor
  · rintro (⟨before, procedure, after, listed, unrepeated, known, rfl⟩ |
      ⟨distinct, before, part, after, listed, failed, sound⟩)
    · exact .repeated listed (repeated?_nil_eq_none.1 unrepeated) known
    · refine .call distinct listed ?_ ((fault?_eq_some distinct).1 failed)
      intro earlier member other fault
      rw [← fault?_eq_some distinct, sound earlier member] at fault
      cases fault
  · intro rejected
    cases rejected with
    | repeated listed distinct known =>
        exact .inl ⟨_, _, _, listed, repeated?_nil_eq_none.2 distinct, known, rfl⟩
    | call distinct listed sound fault =>
        refine .inr ⟨distinct, _, _, _, listed, (fault?_eq_some distinct).2 fault, ?_⟩
        intro earlier member
        rw [Option.eq_none_iff_forall_ne_some]
        intro other failed
        exact sound earlier member other ((fault?_eq_some distinct).1 failed)

theorem compile_eq_error {program : Program} {cause : Error} :
    compile program = .error cause ↔ program.Rejected cause := by
  rw [← fault?_eq_some_iff, compile, assemble_eq]
  cases program.fault? with
  | none => simp [Except.map]
  | some other => simp [Except.map]

/-- The first character of what an error of code generation says. -/
def Error.initial? : Error → Option Char
  | .generation message => message.toList.head?
  | _ => none

theorem initial?_stackUnderflow (name : String) :
    (Error.stackUnderflow name).initial? = some 's' := by
  simp [Error.initial?, Error.stackUnderflow, toString]

theorem initial?_temporariesLeft (count : Nat) (name : String) :
    ∃ digit : Char, (Error.temporariesLeft count name).initial? = some digit ∧ digit.isDigit := by
  cases spelled : Nat.toDigits 10 count with
  | nil => exact absurd spelled Nat.toDigits_ne_nil
  | cons digit rest =>
      refine ⟨digit, ?_, ?_⟩
      · simp [Error.initial?, Error.temporariesLeft, toString, spelled]
      · exact Nat.isDigit_of_mem_toDigits (by decide) (by decide) (spelled ▸ List.mem_cons_self)

/-- A program is rejected for the name of a procedure or for a call, and for nothing else. -/
theorem initial?_of_rejected (rejected : program.Rejected cause) :
    cause.initial? = none ∨ cause.initial? = some 'p' := by
  cases rejected with
  | repeated =>
      right
      simp [Error.initial?, toString]
  | call distinct listed sound fault =>
      left
      cases fault with
      | undefined | arity => rfl

/-- Exactly when and how compiling fails. A program has an assembly if its procedures have
different names and every call in it gives a procedure of the program enough arguments. Otherwise
the error is that of the first procedure with a repeated name, or else that of the first call at
fault; the errors for a stack that is popped when empty or left with words on it never arise. -/
theorem compile_outcome (program : Program) :
    ((∃ text, compile program = .ok text) ↔ program.Callable) ∧
      (∀ cause, compile program = .error cause ↔ program.Rejected cause) ∧
      (∀ name, compile program ≠ .error (.stackUnderflow name)) ∧
      ∀ count name, compile program ≠ .error (.temporariesLeft count name) := by
  refine ⟨?_, fun cause => compile_eq_error, fun name failed => ?_, fun count name failed => ?_⟩
  · rw [← fault?_eq_none_iff]
    constructor
    · rintro ⟨text, compiled⟩
      exact (compile_eq_ok.1 compiled).1
    · intro fault
      exact ⟨_, compile_eq_ok.2 ⟨fault, rfl⟩⟩
  · have initial := initial?_of_rejected (compile_eq_error.1 failed)
    rw [initial?_stackUnderflow] at initial
    simp at initial
  · obtain ⟨digit, first, isDigit⟩ := initial?_temporariesLeft count name
    have initial := initial?_of_rejected (compile_eq_error.1 failed)
    rw [first] at initial
    rcases initial with absent | same
    · cases absent
    · cases same
      exact absurd isDigit (by decide)

end MiniPascal
