import Formulae.Number.RoundingMode
import Formulae.Number.Shortest
import Formulae.Number.Tolerance

/-!
# Decimal rounding

A double is rounded as its shortest decimal and not as its binary value, so that `2.675` is a tie at
two places. The decimal has at most 28 places and a coefficient of 96 bits; places beyond the 28th
are rounded away when it is made, and a number that is too large for it is left as it was. Places
left of the point are reached by dividing by a power of ten, rounding the quotient to an integer and
multiplying back, and the product may leave the range of the coefficient: then there is no answer.
-/

namespace Formulae.Number

/-! ## Decimals of 96 bits -/

/-- The magnitude `coefficient / 10 ^ scale`. -/
structure ScaledDecimal where
  coefficient : Nat
  scale : Nat
deriving Repr, DecidableEq

namespace ScaledDecimal

/-- The largest coefficient. -/
def maxCoefficient : Nat := Nat.pow 2 96 - 1

/-- The largest scale. -/
def maxScale : Nat := 28

/-- A decimal as a scaled one. Places beyond the largest scale are rounded away, a half going up;
whole numbers beyond the largest coefficient have none. -/
def ofDecimal? (d : Decimal) : Option ScaledDecimal :=
  if 0 ≤ d.exponent then
    let coefficient := d.coefficient * Nat.pow 10 d.exponent.toNat
    if coefficient ≤ maxCoefficient then some ⟨coefficient, 0⟩ else none
  else
    let places := d.exponent.natAbs
    if places ≤ maxScale then some ⟨d.coefficient, places⟩
    else
      let unit := Nat.pow 10 (places - maxScale)
      some ⟨RoundingMode.halfUp.roundQuotient false d.coefficient unit, maxScale⟩

/-- A scaled decimal with at most so many places; one that has no more is kept as it is. -/
def roundTo (d : ScaledDecimal) (mode : RoundingMode) (negative : Bool) (places : Nat) :
    ScaledDecimal :=
  if d.scale ≤ places then d
  else
    let unit := Nat.pow 10 (d.scale - places)
    ⟨mode.roundQuotient negative d.coefficient unit, places⟩

/-- A scaled decimal divided by `10 ^ n`. Places beyond the largest scale are rounded away, a half
going to the even neighbour. -/
def shiftRight (d : ScaledDecimal) (n : Nat) : ScaledDecimal :=
  if d.scale + n ≤ maxScale then ⟨d.coefficient, d.scale + n⟩
  else
    let unit := Nat.pow 10 (d.scale + n - maxScale)
    ⟨RoundingMode.halfEven.roundQuotient false d.coefficient unit, maxScale⟩

/-- The double of a scaled decimal. The integer part and the fraction become doubles of their own;
their sum is then freed from the error of the addition by rounding it at its scale. -/
def toDouble (d : ScaledDecimal) : Float :=
  let unit := Nat.pow 10 d.scale
  let integer := Float.ofNat (d.coefficient / unit)
  let fraction := Float.ofNat (d.coefficient % unit) / Float.ofNat unit
  if d.scale = 0 || fraction == 0.0 then integer
  else
    -- the sum may miss the last bits of the decimal
    let factor := powerOfTen d.scale
    nearestWhole ((integer + fraction) * factor) / factor

end ScaledDecimal

/-! ## Rounding doubles -/

/-- The double of a signed magnitude; a zero has no sign. -/
def signedNumber (negative : Bool) (d : ScaledDecimal) : Float :=
  if d.coefficient = 0 then 0.0 else signed negative d.toDouble

/-- Rounds a magnitude to a multiple of `10 ^ n`. From the 29th power on nothing but zero is left;
`none` when the multiple is beyond the largest coefficient. -/
def roundLeft? (mode : RoundingMode) (negative : Bool) (n : Nat) (d : ScaledDecimal) :
    Option ScaledDecimal :=
  if ScaledDecimal.maxScale < n then some ⟨0, 0⟩
  else
    let quotient := (d.shiftRight n).roundTo mode negative 0
    let multiple := quotient.coefficient * Nat.pow 10 n
    if multiple ≤ ScaledDecimal.maxCoefficient then some ⟨multiple, 0⟩ else none

/-- Rounds a double to a number of decimal places, a negative number meaning places left of the
point. Infinities, no number, and numbers beyond the largest coefficient are left as they are;
`none` when the rounded number is beyond it. -/
def roundTo? (mode : RoundingMode) (x : Float) (places : Int) : Option Float :=
  match parts x with
  | .finite negative significand exponent =>
    match ScaledDecimal.ofDecimal? (shortest significand exponent) with
    | none => some x
    | some d =>
      if 0 ≤ places then some (signedNumber negative (d.roundTo mode negative places.toNat))
      else (roundLeft? mode negative places.natAbs d).map (signedNumber negative)
  | _ => some x

end Formulae.Number
