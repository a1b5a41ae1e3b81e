/-!
# Decimal text of 32-bit integers

`Decimal.render` writes a value with a minus sign where it is negative and without leading
zeros. `Decimal.read?` accepts an optional sign followed by at least one digit, and refuses
what does not fit into 32 bits.
-/

namespace MiniPascal.Decimal

/-- The decimal text of a value. The magnitude of the least value is no 32-bit value, so it is
taken among the natural numbers. -/
def render (value : Int32) : String :=
  if value < 0 then "-" ++ Nat.repr value.toInt.natAbs else Nat.repr value.toInt.natAbs

/-- The 32-bit value equal to an integer, if there is one. -/
def ofInt? (number : Int) : Option Int32 :=
  if Int32.minValue.toInt ≤ number ∧ number ≤ Int32.maxValue.toInt then
    some (Int32.ofInt number)
  else
    none

/-- The number that a text of digits and nothing else denotes. -/
def magnitude? (text : List Char) : Option Nat :=
  if text ≠ [] ∧ text.all Char.isDigit then some (Nat.ofDigitChars 10 text 0) else none

/-- The value that a signed text denotes. -/
def read? : List Char → Option Int32
  | '-' :: digits => (magnitude? digits).bind fun number => ofInt? (-number)
  | '+' :: digits => (magnitude? digits).bind fun number => ofInt? number
  | digits => (magnitude? digits).bind fun number => ofInt? number

end MiniPascal.Decimal
