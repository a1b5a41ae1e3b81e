import MiniPascal.Text.Decimal

/-!
# Reading back decimal text

The text of a value is read as that value, and every text of digits is read as the number that it
denotes if that number fits.
-/

namespace MiniPascal.Decimal

/-- The digits of a number denote it. -/
theorem magnitude?_toDigits (number : Nat) : magnitude? (Nat.toDigits 10 number) = some number := by
  have digits : (Nat.toDigits 10 number).all Char.isDigit := by
    rw [List.all_eq_true]
    exact fun character => Nat.isDigit_of_mem_toDigits (by decide) (by decide)
  rw [magnitude?, if_pos ⟨Nat.toDigits_ne_nil, digits⟩, Nat.ofDigitChars_ten_toDigits]

theorem ofInt?_toInt (value : Int32) : ofInt? value.toInt = some value := by
  rw [ofInt?, if_pos ⟨Int32.minValue_le_toInt value, Int32.toInt_le value⟩, Int32.ofInt_toInt]

theorem toInt_of_ofInt? {number : Int} {value : Int32} (fits : ofInt? number = some value) :
    value.toInt = number := by
  rw [ofInt?] at fits
  split at fits
  · next bounds =>
      obtain ⟨lower, upper⟩ := bounds
      rw [Int32.toInt_minValue] at lower
      rw [Int32.toInt_maxValue] at upper
      cases fits
      exact Int32.toInt_ofInt_of_le (by omega) (by omega)
  · cases fits

/-- A text that starts with a digit has no sign. -/
theorem read?_of_isDigit {first : Char} {rest : List Char} (digit : first.isDigit) :
    read? (first :: rest) = (magnitude? (first :: rest)).bind fun number => ofInt? number := by
  unfold read?
  split
  · next same =>
      cases same
      cases digit
  · next same =>
      cases same
      cases digit
  · rfl

theorem read?_toDigits (number : Nat) :
    read? (Nat.toDigits 10 number) = ofInt? (number : Int) := by
  cases spelled : Nat.toDigits 10 number with
  | nil => exact absurd spelled Nat.toDigits_ne_nil
  | cons first rest =>
      have digit : first.isDigit :=
        Nat.isDigit_of_mem_toDigits (by decide) (by decide) (spelled ▸ List.mem_cons_self)
      rw [read?_of_isDigit digit, ← spelled, magnitude?_toDigits]
      rfl

/-- The text of a value is read as the value. -/
theorem read?_render (value : Int32) : read? (render value).toList = some value := by
  rw [render]
  split
  · next negative =>
      have same : -(value.toInt.natAbs : Int) = value.toInt := by
        rw [Int32.lt_iff_toInt_lt] at negative
        change value.toInt < 0 at negative
        omega
      rw [String.toList_append, Nat.toList_repr]
      change (magnitude? (Nat.toDigits 10 _)).bind _ = _
      rw [magnitude?_toDigits, Option.bind_some, same, ofInt?_toInt]
  · next positive =>
      have same : (value.toInt.natAbs : Int) = value.toInt := by
        rw [Int32.lt_iff_toInt_lt] at positive
        change ¬ value.toInt < 0 at positive
        omega
      rw [Nat.toList_repr, read?_toDigits, same, ofInt?_toInt]

theorem isDigit_of_mem_repr {number : Nat} {character : Char}
    (member : character ∈ (Nat.repr number).toList) : character.isDigit := by
  rw [Nat.toList_repr] at member
  exact Nat.isDigit_of_mem_toDigits (by decide) (by decide) member

/-- The text of a value is made of digits and a minus sign. -/
theorem eq_minus_or_isDigit_of_mem_render {value : Int32} {character : Char}
    (member : character ∈ (render value).toList) : character = '-' ∨ character.isDigit := by
  rw [render] at member
  split at member
  · rw [String.toList_append, List.mem_append] at member
    cases member with
    | inl sign => exact .inl (by simpa using sign)
    | inr digit => exact .inr (isDigit_of_mem_repr digit)
  · exact .inr (isDigit_of_mem_repr member)

theorem render_ne_empty (value : Int32) : (render value).toList ≠ [] := by
  intro empty
  have read := read?_render value
  rw [empty] at read
  cases read

end MiniPascal.Decimal
