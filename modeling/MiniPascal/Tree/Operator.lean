import MiniPascal.Error

/-!
# Operators

The five arithmetic operators and the six comparisons, with their spelling and their meaning on
32-bit values. Arithmetic wraps around; division and remainder truncate toward zero and fail
when the right operand is zero.
-/

namespace MiniPascal

/-- An arithmetic operator. -/
inductive Operator where
  | add
  | sub
  | mul
  | div
  | mod
  deriving DecidableEq, Repr

namespace Operator

/-- The spelling in a source text. -/
def symbol : Operator → String
  | .add => "+"
  | .sub => "-"
  | .mul => "*"
  | .div => "/"
  | .mod => "mod"

/-- The value of an operator on two operands. The least value divided by minus one wraps around
to itself, with remainder zero. -/
def apply : Operator → Int32 → Int32 → Except Error Int32
  | .add, left, right => .ok (left + right)
  | .sub, left, right => .ok (left - right)
  | .mul, left, right => .ok (left * right)
  | .div, left, right => if right = 0 then .error (.byZero "division") else .ok (left / right)
  | .mod, left, right => if right = 0 then .error (.byZero "modulus") else .ok (left % right)

end Operator

/-- A comparison of two values. -/
inductive Comparison where
  | eq
  | ne
  | lt
  | gt
  | le
  | ge
  deriving DecidableEq, Repr

namespace Comparison

/-- The spelling in a source text. -/
def symbol : Comparison → String
  | .eq => "="
  | .ne => "<>"
  | .lt => "<"
  | .gt => ">"
  | .le => "<="
  | .ge => ">="

/-- Whether the comparison is true of two values. -/
def holds : Comparison → Int32 → Int32 → Bool
  | .eq, left, right => left = right
  | .ne, left, right => left ≠ right
  | .lt, left, right => left < right
  | .gt, left, right => right < left
  | .le, left, right => left ≤ right
  | .ge, left, right => right ≤ left

/-- The comparison that is true exactly when this one is false. -/
def negate : Comparison → Comparison
  | .eq => .ne
  | .ne => .eq
  | .lt => .ge
  | .gt => .le
  | .le => .gt
  | .ge => .lt

theorem holds_negate (comparison : Comparison) (left right : Int32) :
    comparison.negate.holds left right = !comparison.holds left right := by
  cases comparison with
  | eq | ne => simp [negate, holds]
  | lt | gt | le | ge =>
      rw [Bool.eq_iff_iff]
      simp [negate, holds, Int32.lt_iff_toInt_lt, Int32.le_iff_toInt_le]

end Comparison

end MiniPascal
