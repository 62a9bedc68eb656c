import Mathlib.Tactic.Ring
import Formulae.Number.Decimal
import Formulae.Text.Blank

/-!
# Digits of numbers

Numbers are written with digits, and digits denote numbers. What a number is written with denotes it
again, and a text of digits denotes what its two parts denote, the first one moved up by the length
of the second.

Main results:

* `ofDigits_append` — how the value of a text of digits depends on its parts.
* `ofDigits_digitsOf` — a number is found again in its digits.
-/

namespace Formulae.Number

-- ---------------------------------------------------------------------------
-- A single digit
-- ---------------------------------------------------------------------------

/-- The character of a digit has the digit's value. -/
theorem digitValue_digitChar {d : Nat} (h : d < 10) : digitValue d.digitChar = d :=
  Nat.toNat_digitChar_sub_48_of_lt_ten h

/-- A digit is not white space. -/
theorem isBlank_of_isDigit {c : Char} (h : c.isDigit = true) : Text.isBlank c = false := by
  have hcode : 48 ≤ c.toNat ∧ c.toNat ≤ 57 := Char.isDigit_iff_toNat.mp h
  have hne (code : Nat) (hne : code < 48 ∨ 57 < code) : (c.toNat == code) = false := by
    rw [beq_eq_false_iff_ne]
    omega
  have hlow : (c.toNat ≤ 0x0D : Bool) = false := decide_eq_false (by omega)
  have hhigh : (0x2000 ≤ c.toNat : Bool) = false := decide_eq_false (by omega)
  simp [Text.isBlank, hne, hlow, hhigh]

-- ---------------------------------------------------------------------------
-- Texts of digits
-- ---------------------------------------------------------------------------

/-- What is read before moves up by the number of the digits that follow. -/
theorem ofDigitsFrom_eq (start : Nat) (digits : List Char) :
    ofDigitsFrom start digits = start * 10 ^ digits.length + ofDigits digits := by
  induction digits generalizing start with
  | nil => simp [ofDigitsFrom, ofDigits]
  | cons d digits ih =>
    have hfront : ofDigitsFrom start (d :: digits) =
        ofDigitsFrom (10 * start + digitValue d) digits := rfl
    have hzero : ofDigits (d :: digits) = ofDigitsFrom (10 * 0 + digitValue d) digits := rfl
    rw [hfront, hzero, ih, ih (10 * 0 + digitValue d), List.length_cons]
    ring

/-- Digits in front count as many tens more as there are digits behind them. -/
theorem ofDigits_append (front back : List Char) :
    ofDigits (front ++ back) = ofDigits front * 10 ^ back.length + ofDigits back := by
  rw [ofDigits, ofDigitsFrom_append, ofDigitsFrom_eq]
  rfl

/-- Zeros in front make no difference. -/
theorem ofDigits_zeros (count : Nat) : ofDigits (List.replicate count '0') = 0 := by
  induction count with
  | zero => rfl
  | succ count ih =>
    rw [List.replicate_succ, ← List.singleton_append, ofDigits_append, ih]
    simp [ofDigits, ofDigitsFrom, digitValue]

-- ---------------------------------------------------------------------------
-- The digits of a number
-- ---------------------------------------------------------------------------

/-- A number is found again in its digits. -/
theorem ofDigits_digitsOf (n : Nat) : ofDigits (digitsOf n) = n :=
  have hvalues : ofDigits (digitsOf n) = Nat.ofDigitChars 10 (Nat.toDigits 10 n) 0 := rfl
  hvalues.trans (Nat.ofDigitChars_toDigits (by omega) (by omega))

theorem isDigit_digitsOf (n : Nat) : ∀ c ∈ digitsOf n, c.isDigit = true := fun _ hc =>
  Nat.isDigit_of_mem_toDigits (by omega) (by omega) hc

/-- Every number has digits, zero too. -/
theorem digitsOf_ne_nil (n : Nat) : digitsOf n ≠ [] :=
  Nat.toDigits_ne_nil

end Formulae.Number
