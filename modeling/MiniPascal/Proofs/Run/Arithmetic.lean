import MiniPascal.Proofs.Run.Basic
import Mathlib.Data.Int.ModEq

/-!
# Wrap-around arithmetic

Sums, differences and products of 32-bit values are those of the integers modulo 2^32. So an
expression that is built by them has the value of the same expression over the integers, wrapped
around once, whatever overflows on the way. Reading a variable that is bound nowhere binds it to
zero, for which it stood before, so that evaluation does not change what the variables stand for.
Division and remainder belong together as they do over the integers, also where the quotient
overflows.
-/

namespace MiniPascal

open Interpreter (evaluate)

/-! ### Sums, differences and products -/

/-- An expression built from numbers and variables by signs, sums, differences and products. -/
inductive RingTerm where
  | num (value : Int32)
  | var (name : String)
  | neg (term : RingTerm)
  | add (left right : RingTerm)
  | sub (left right : RingTerm)
  | mul (left right : RingTerm)

namespace RingTerm

/-- The tree of the expression. -/
def tree : RingTerm → Expr
  | .num value => .num value
  | .var name => .var name
  | .neg term => .negation term.tree
  | .add left right => .binary .add left.tree right.tree
  | .sub left right => .binary .sub left.tree right.tree
  | .mul left right => .binary .mul left.tree right.tree

/-- The value of the expression over the unbounded integers, by what its variables mean. -/
def value (meaning : String → Int) : RingTerm → Int
  | .num value => value.toInt
  | .var name => meaning name
  | .neg term => -term.value meaning
  | .add left right => left.value meaning + right.value meaning
  | .sub left right => left.value meaning - right.value meaning
  | .mul left right => left.value meaning * right.value meaning

end RingTerm

/-- The integer for which a name stands; this is zero if the name is bound nowhere. -/
def Environment.integer (environment : Environment) (name : String) : Int :=
  (environment.lookup? name).elim 0 Int32.toInt

theorem get_fst (environment : Environment) (name : String) :
    (environment.get name).1 = .ofInt (environment.integer name) := by
  rw [Environment.get, Environment.integer]
  cases environment.lookup? name with
  | some value => exact (Int32.ofInt_toInt value).symm
  | none => rfl

/-- Reading a variable does not change for what the names stand. -/
theorem integer_get (environment : Environment) (name : String) :
    (environment.get name).2.integer = environment.integer := by
  rw [Environment.get]
  cases unbound : environment.lookup? name with
  | some value => rfl
  | none =>
      -- The name stood for zero before, since it was bound nowhere.
      funext other
      by_cases same : name = other
      · subst same
        simp [Environment.integer, lookup?_declare, unbound]
      · simp [Environment.integer, lookup?_declare, same]

/-- From every state an expression evaluates to the wrapped value of an integer, which depends on
what the variables stand for, and they stand for the same afterwards. -/
def Wraps (fuel : Nat) (tree : Expr) (number : (String → Int) → Int) : Prop :=
  ∀ state, ∃ after,
    evaluate fuel tree state = .ok (.ofInt (number state.environment.integer)) after ∧
      after.environment.integer = state.environment.integer

namespace Wraps

variable {fuel : Nat} {left right : Expr} {number number' : (String → Int) → Int}

theorem num (value : Int32) : Wraps fuel (.num value) fun _ => value.toInt := by
  intro state
  refine ⟨state, ?_, rfl⟩
  rw [Int32.ofInt_toInt]
  rfl

theorem var (name : String) : Wraps fuel (.var name) fun meaning => meaning name := by
  intro state
  refine ⟨{ state with environment := (state.environment.get name).2 }, ?_, integer_get _ name⟩
  rw [← get_fst]
  rfl

/-- An operator that wraps around like an operation on the integers. -/
theorem binary {operator : Operator} {combine : Int → Int → Int}
    (wraps : ∀ first second : Int,
      operator.apply (.ofInt first) (.ofInt second) = .ok (.ofInt (combine first second)))
    (one : Wraps fuel left number) (two : Wraps fuel right number') :
    Wraps fuel (.binary operator left right)
      fun meaning => combine (number meaning) (number' meaning) := by
  intro state
  obtain ⟨middle, evaluated, same⟩ := one state
  obtain ⟨after, evaluated', same'⟩ := two middle
  rw [same] at evaluated' same'
  refine ⟨after, ?_, same'⟩
  rw [evaluate] at evaluated evaluated' ⊢
  simp only [Interpreter.evaluateWith, bind, EStateM.bind, evaluated, evaluated', wraps]
  rfl

theorem add (one : Wraps fuel left number) (two : Wraps fuel right number') :
    Wraps fuel (.binary .add left right)
      fun meaning => number meaning + number' meaning :=
  binary (fun first second => by rw [Operator.apply, Int32.ofInt_add]) one two

theorem sub (one : Wraps fuel left number) (two : Wraps fuel right number') :
    Wraps fuel (.binary .sub left right)
      fun meaning => number meaning - number' meaning :=
  binary (fun first second => by rw [Operator.apply, Int32.ofInt_sub]) one two

theorem mul (one : Wraps fuel left number) (two : Wraps fuel right number') :
    Wraps fuel (.binary .mul left right)
      fun meaning => number meaning * number' meaning :=
  binary (fun first second => by rw [Operator.apply, Int32.ofInt_mul]) one two

/-- The sign is a subtraction from zero. -/
theorem negation (one : Wraps fuel left number) :
    Wraps fuel (.negation left) fun meaning => -number meaning := by
  have zero : Wraps fuel (.num 0) fun _ => (0 : Int32).toInt := num 0
  simpa only [Expr.negation, Int32.toInt_zero, Int.zero_sub] using zero.sub one

end Wraps

theorem wraps_tree (fuel : Nat) (term : RingTerm) :
    Wraps fuel term.tree fun meaning => term.value meaning := by
  induction term with
  | num value => exact .num value
  | var name => exact .var name
  | neg term ih => exact ih.negation
  | add left right ihLeft ihRight => exact ihLeft.add ihRight
  | sub left right ihLeft ihRight => exact ihLeft.sub ihRight
  | mul left right ihLeft ihRight => exact ihLeft.mul ihRight

/-- The wrapped value of an integer is the only 32-bit value congruent to it. -/
theorem modEq_iff_eq_ofInt (value : Int32) (number : Int) :
    value.toInt ≡ number [ZMOD 2 ^ 32] ↔ value = .ofInt number := by
  rw [eq_comm (a := value), Int32.ofInt_eq_iff_bmod_eq_toInt]
  constructor
  · intro congruent
    calc
      number.bmod (2 ^ 32) = (number % (2 ^ 32 : Nat)).bmod (2 ^ 32) := (Int.emod_bmod _ _).symm
      _ = (value.toInt % (2 ^ 32 : Nat)).bmod (2 ^ 32) := congrArg (Int.bmod · _) congruent.symm
      _ = value.toInt.bmod (2 ^ 32) := Int.emod_bmod _ _
      _ = value.toInt := Int32.toInt_bmod value
  · intro wrapped
    rw [← wrapped]
    exact Int.bmod_emod

/-! ### Quotients and remainders -/

/-- Quotient and remainder give back the dividend. The quotient of the least value and minus one is
wrapped around, and so is its product with minus one. -/
theorem div_mul_add_mod (dividend divisor : Int32) :
    dividend / divisor * divisor + dividend % divisor = dividend := by
  rw [← Int32.toInt_inj, Int32.toInt_add, Int32.toInt_mul, Int32.toInt_div, Int32.toInt_mod,
    Int.bmod_mul_bmod, Int.bmod_add_bmod, Int.tdiv_mul_add_tmod]
  exact Int32.toInt_bmod dividend

/-- A remainder other than zero has the sign of the dividend. -/
theorem sign_mod (dividend divisor : Int32) :
    dividend % divisor = 0 ∨ (dividend % divisor).toInt.sign = dividend.toInt.sign := by
  by_cases divides : divisor.toInt ∣ dividend.toInt
  · left
    rw [← Int32.toInt_inj, Int32.toInt_mod, Int.tmod_eq_zero_of_dvd divides, Int32.toInt_zero]
  · right
    rw [Int32.toInt_mod, Int.sign_tmod, if_neg divides]

theorem natAbs_mod_lt {divisor : Int32} (dividend : Int32) (nonzero : divisor ≠ 0) :
    (dividend % divisor).toInt.natAbs < divisor.toInt.natAbs := by
  have nonzero : divisor.toInt ≠ 0 := by
    rwa [Ne, ← Int32.toInt_zero, Int32.toInt_inj]
  rw [Int32.toInt_mod, Int.natAbs_tmod]
  exact Nat.mod_lt _ (Int.natAbs_pos.2 nonzero)

/-- Arithmetic is exact modulo 2^32. An expression of sums, differences, products and signs always
has a value, which is the only 32-bit value congruent to that of the expression over the integers.
Quotient and remainder by any divisor but zero give back the dividend, and the remainder is smaller
than the divisor and has the sign of the dividend, unless it is zero. -/
theorem arithmetic_exact :
    (∀ (fuel : Nat) (term : RingTerm) (state : Interpreter), ∃ value after,
      evaluate fuel term.tree state = .ok value after ∧
        ∀ other : Int32,
          other.toInt ≡ term.value state.environment.integer [ZMOD 2 ^ 32] ↔ other = value) ∧
    ∀ dividend divisor : Int32, divisor ≠ 0 → ∃ quotient product remainder,
      Operator.div.apply dividend divisor = .ok quotient ∧
      Operator.mul.apply quotient divisor = .ok product ∧
      Operator.mod.apply dividend divisor = .ok remainder ∧
      Operator.add.apply product remainder = .ok dividend ∧
      (remainder = 0 ∨ remainder.toInt.sign = dividend.toInt.sign) ∧
      remainder.toInt.natAbs < divisor.toInt.natAbs := by
  constructor
  · intro fuel term state
    obtain ⟨after, evaluated, -⟩ := wraps_tree fuel term state
    exact ⟨_, after, evaluated, fun other => modEq_iff_eq_ofInt other _⟩
  · intro dividend divisor nonzero
    refine ⟨dividend / divisor, dividend / divisor * divisor, dividend % divisor,
      if_neg nonzero, rfl, if_neg nonzero, ?_, sign_mod dividend divisor,
      natAbs_mod_lt dividend nonzero⟩
    rw [Operator.apply, div_mul_add_mod]

theorem arithmetic_exact_leastValue :
    (-1 : Int32) ≠ 0 ∧ ∃ quotient product remainder,
      Operator.div.apply Int32.minValue (-1) = .ok quotient ∧
      Operator.mul.apply quotient (-1) = .ok product ∧
      Operator.mod.apply Int32.minValue (-1) = .ok remainder ∧
      Operator.add.apply product remainder = .ok Int32.minValue ∧
      (remainder = 0 ∨ remainder.toInt.sign = Int32.minValue.toInt.sign) ∧
      remainder.toInt.natAbs < (-1 : Int32).toInt.natAbs := by
  have nonzero : (-1 : Int32) ≠ 0 := by decide
  exact ⟨nonzero, arithmetic_exact.2 Int32.minValue (-1) nonzero⟩

end MiniPascal
