import Formulae.Text.Blank
import Formulae.Text.Case
import Formulae.Number.Double
import Formulae.Number.Decimal
import Formulae.Number.RoundingMode

/-!
# Reading numbers

A number text may have white space around it, uses a point or a comma before its fraction, and is
read to the nearest double. After an optional sign stands a decimal, with digits on at least one
side of the mark and an optional exponent, or one of the words `inf`, `infinity` and `nan`, in any
case.

An exponent is read as far as it is below 65536. No double is that large or that small, but a text
with as many digits can make up for a large exponent, and then it is the part read that counts.

Every finite double is a multiple of `2 ^ -1074`. Counted in this unit a magnitude is a quotient of
integers. It has a place for each bit, and a double has room for the first 53 of them: what does not
fit is rounded away, a tie going to the even neighbour. The field of the exponent says how many
places were given up, and since the first bit is not stored but counted there, a carry out of the
significand is a carry into the exponent.

Main statement: `exponentOf_eq_ofDigits`, an exponent below that bound is read whole.
-/

namespace Formulae.Number

/-! ## The nearest double -/

/-- How many places a magnitude with this many whole units has beyond the 53 of a double. -/
def placesBeyond (units : Nat) : Nat :=
  units.log2 + 1 - 53

/-- The double nearest to `numerator / denominator` units of `2 ^ -1074`. -/
def nearestDouble (numerator denominator : Nat) : Float :=
  let places := placesBeyond (numerator / denominator)
  let significand :=
    RoundingMode.halfEven.roundQuotient false numerator (denominator * Nat.pow 2 places)
  -- the exponent field would be the one of the infinities, or beyond
  if 2045 < places then 1.0 / 0.0
  else Float.ofBits (UInt64.ofNat (places * Nat.pow 2 52 + significand))

/-- The double nearest to a decimal. Beyond the range of doubles the answer is known without the
power of ten: from `10 ^ 310` on it is infinite, and below `10 ^ -330` it is zero. -/
def Decimal.toDouble (d : Decimal) : Float :=
  let size := digitCount d.coefficient + d.exponent
  if d.coefficient = 0 ∨ size < -330 then 0.0
  else if 310 < size then 1.0 / 0.0
  else
    nearestDouble (d.coefficient * Nat.pow 10 d.exponent.toNat * Nat.pow 2 1074)
      (Nat.pow 10 (-d.exponent).toNat)

/-! ## Number texts -/

/-- An optional sign, and what follows it. -/
def takeSign : List Char → Bool × List Char
  | '-' :: rest => (true, rest)
  | '+' :: rest => (false, rest)
  | rest => (false, rest)

/-- The digits that begin a text, and what follows them. -/
def takeDigits (cs : List Char) : List Char × List Char :=
  (cs.takeWhile Char.isDigit, cs.dropWhile Char.isDigit)

/-- The bound beyond which no more digits of an exponent are read. -/
def exponentBound : Nat := 65536

/-- The exponent after one more digit. -/
def extendExponent (value : Nat) (digit : Char) : Nat :=
  if value < exponentBound then 10 * value + digitValue digit else value

/-- The exponent that digits denote, as far as they are read. -/
def exponentOf (digits : List Char) : Nat :=
  digits.foldl extendExponent 0

/-- The exponent that ends a decimal: nothing, or a letter `e`, an optional sign, and digits. -/
def readExponent? : List Char → Option Int
  | [] => some 0
  | c :: rest =>
    if c = 'e' ∨ c = 'E' then
      let (negative, rest) := takeSign rest
      if rest.isEmpty || !rest.all Char.isDigit then none
      else some (signedInt negative (exponentOf rest))
    else none

/-- A decimal without a sign. -/
def readDecimal? (cs : List Char) : Option Decimal :=
  let (before, rest) := takeDigits cs
  let (after, rest) := match rest with
    | '.' :: rest => takeDigits rest
    | rest => ([], rest)
  if before.isEmpty && after.isEmpty then none
  else (readExponent? rest).map fun exponent =>
    ⟨ofDigits (before ++ after), exponent - after.length⟩

/-- The double that a word stands for. -/
def readWord? (cs : List Char) : Option Float :=
  let word := String.ofList (cs.map Text.asciiLower)
  if word = "inf" || word = "infinity" then some (1.0 / 0.0)
  else if word = "nan" then some (0.0 / 0.0)
  else none

/-- A decimal with a point, or a word, after an optional sign. -/
def readDouble? (cs : List Char) : Option Float :=
  let (negative, rest) := takeSign cs
  let magnitude := match readDecimal? rest with
    | some d => some d.toDouble
    | none => readWord? rest
  magnitude.map (signed negative)

/-- The double that a number text denotes, if it is one. -/
def read? (text : String) : Option Float :=
  readDouble? ((Text.trim text.toList).map fun c => if c = ',' then '.' else c)

/-! ## Exponents -/

/-- Digits only make a number larger. -/
theorem le_ofDigitsFrom (start : Nat) (digits : List Char) :
    start ≤ ofDigitsFrom start digits := by
  induction digits generalizing start with
  | nil => exact Nat.le_refl _
  | cons d digits ih => exact Nat.le_trans (by omega) (ih (10 * start + digitValue d))

/-- Digits that stay below the bound are all read. -/
theorem foldl_extendExponent {start : Nat} {digits : List Char}
    (h : ofDigitsFrom start digits < exponentBound) :
    digits.foldl extendExponent start = ofDigitsFrom start digits := by
  induction digits generalizing start with
  | nil => rfl
  | cons d digits ih =>
    have hstart : start < exponentBound :=
      Nat.lt_of_le_of_lt (le_ofDigitsFrom start (d :: digits)) h
    rw [List.foldl_cons, extendExponent, if_pos hstart]
    exact ih h

/-- An exponent below the bound is read whole. -/
theorem exponentOf_eq_ofDigits {digits : List Char} (h : ofDigits digits < exponentBound) :
    exponentOf digits = ofDigits digits :=
  foldl_extendExponent h

end Formulae.Number
