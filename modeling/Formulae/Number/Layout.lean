import Formulae.Number.Double
import Formulae.Number.Shortest

/-!
# Number texts

Two ways of writing a double, both with its shortest digits. The *formula form* is what text
functions see: at least one digit after the point, positional from `10 ^ -3` up to but excluding
`10 ^ 7`, and scientific with a capital `E` elsewhere. The *positional form* never uses an exponent
and writes whole numbers without a point; messages use it.
-/

namespace Formulae.Number

/-- The digits of a decimal around its point: those before it, and those after it. -/
def Decimal.pointed (d : Decimal) : List Char × List Char :=
  let digits := digitsOf d.coefficient
  if 0 ≤ d.exponent then (digits ++ List.replicate d.exponent.toNat '0', [])
  else
    let places := (-d.exponent).toNat
    if places < digits.length then digits.splitAt (digits.length - places)
    else (['0'], List.replicate (places - digits.length) '0' ++ digits)

/-- A decimal without an exponent; the point only where digits follow it. -/
def Decimal.positional (d : Decimal) : List Char :=
  match d.pointed with
  | (before, []) => before
  | (before, after) => before ++ '.' :: after

/-- A decimal without an exponent and with at least one digit after the point. -/
def Decimal.pointedText (d : Decimal) : List Char :=
  match d.pointed with
  | (before, []) => before ++ ['.', '0']
  | (before, after) => before ++ '.' :: after

/-- The decimal text of an integer. -/
def integerText (n : Int) : List Char :=
  if n < 0 then '-' :: digitsOf n.natAbs else digitsOf n.natAbs

/-- A decimal with one digit before the point, at least one after it, and an exponent. -/
def Decimal.scientific (d : Decimal) : List Char :=
  match digitsOf d.coefficient with
  | [] => []
  | first :: more =>
    let fraction := if more.isEmpty then ['0'] else more
    first :: '.' :: fraction ++ 'E' :: integerText (d.exponent + more.length)

/-- A minus sign in front of a negative number's digits. -/
def withSign (negative : Bool) (digits : List Char) : List Char :=
  if negative then '-' :: digits else digits

/-- The formula form of a double. -/
def format (x : Float) : String :=
  match parts x with
  | .nan => "NaN"
  | .infinite negative => if negative then "-Infinity" else "Infinity"
  | .finite negative significand exponent =>
    let d := shortest significand exponent
    let plain := significand = 0 || (1e-3 ≤ x.abs && x.abs < 1e7)
    String.ofList (withSign negative (if plain then d.pointedText else d.scientific))

/-- The positional form of a double. -/
def positional (x : Float) : String :=
  match parts x with
  | .nan => "NaN"
  | .infinite negative => if negative then "-inf" else "inf"
  | .finite negative significand exponent =>
    String.ofList (withSign negative (shortest significand exponent).positional)

end Formulae.Number
