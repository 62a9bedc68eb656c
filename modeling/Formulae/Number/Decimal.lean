/-!
# Decimals

A decimal is a coefficient with a power of ten. It is what the digits of a number text mean, and
what the shortest text of a double is made of.

Main statements: `ofDigitsFrom_append` (digits are read from the left, one block after the other)
and `Decimal.coefficient_normal` (in normal form a coefficient other than zero does not end in a
zero).
-/

namespace Formulae.Number

/-- The number `coefficient * 10 ^ exponent`. -/
structure Decimal where
  coefficient : Nat
  exponent : Int
deriving Repr, DecidableEq

/-! ## Digits -/

/-- The value of a decimal digit. -/
def digitValue (c : Char) : Nat :=
  c.toNat - 48

/-- The number that decimal digits denote, after the digits that denote `start`. -/
def ofDigitsFrom (start : Nat) (digits : List Char) : Nat :=
  digits.foldl (fun value digit => 10 * value + digitValue digit) start

/-- The number that decimal digits denote. -/
def ofDigits (digits : List Char) : Nat :=
  ofDigitsFrom 0 digits

theorem ofDigitsFrom_append (start : Nat) (front back : List Char) :
    ofDigitsFrom start (front ++ back) = ofDigitsFrom (ofDigitsFrom start front) back := by
  simp [ofDigitsFrom]

/-- The digits of a number, without leading zeros. -/
def digitsOf (n : Nat) : List Char :=
  Nat.toDigits 10 n

/-- How many decimal digits a number has; none for zero. -/
def digitCount (n : Nat) : Nat :=
  if n = 0 then 0 else digitCount (n / 10) + 1

/-! ## Normal form -/

/-- Takes the zeros at the end of the coefficient into the exponent. -/
def Decimal.normal (d : Decimal) : Decimal :=
  if d.coefficient ≠ 0 ∧ d.coefficient % 10 = 0 then
    normal ⟨d.coefficient / 10, d.exponent + 1⟩
  else d
termination_by d.coefficient
decreasing_by omega

/-- In normal form a coefficient other than zero does not end in a zero. -/
theorem Decimal.coefficient_normal (d : Decimal) :
    d.normal.coefficient = 0 ∨ d.normal.coefficient % 10 ≠ 0 := by
  induction d using Decimal.normal.induct with
  | case1 d h ih => rw [normal, if_pos h]; exact ih
  | case2 d h => rw [normal, if_neg h]; omega

end Formulae.Number
