/-!
# Rounding modes

The ways to round a quotient to an integer. A quotient is one of two magnitudes, so a mode that
distinguishes up and down is told the sign.

Main statement: `roundQuotient_bounds`, every mode goes to one of the two integers around a
quotient.
-/

namespace Formulae.Number

/-- Where a decimal goes that does not stand on the grid. -/
inductive RoundingMode
  /-- Away from zero. -/
  | up
  /-- Toward zero. -/
  | down
  /-- Toward positive infinity. -/
  | ceiling
  /-- Toward negative infinity. -/
  | floor
  /-- To the nearest neighbour, a tie away from zero. -/
  | halfUp
  /-- To the nearest neighbour, a tie toward zero. -/
  | halfDown
  /-- To the nearest neighbour, a tie to the even one. -/
  | halfEven
deriving Repr, DecidableEq

/-- Whether a magnitude with this integer part and this remainder of the divisor goes up. -/
def RoundingMode.goesUp (mode : RoundingMode) (negative : Bool) (below rest divisor : Nat) : Bool :=
  match mode with
  | .up => rest != 0
  | .down => false
  | .ceiling => rest != 0 && !negative
  | .floor => rest != 0 && negative
  | .halfUp => divisor ≤ 2 * rest
  | .halfDown => divisor < 2 * rest
  | .halfEven => divisor < 2 * rest || (2 * rest == divisor && below % 2 == 1)

/-- The integer that the magnitude `dividend / divisor` of a signed number is rounded to. -/
def RoundingMode.roundQuotient (mode : RoundingMode) (negative : Bool) (dividend divisor : Nat) :
    Nat :=
  let below := dividend / divisor
  if mode.goesUp negative below (dividend % divisor) divisor then below + 1 else below

/-- Every mode goes to one of the two integers around a quotient. -/
theorem RoundingMode.roundQuotient_bounds (mode : RoundingMode) (negative : Bool)
    (dividend divisor : Nat) :
    dividend / divisor ≤ mode.roundQuotient negative dividend divisor ∧
      mode.roundQuotient negative dividend divisor ≤ dividend / divisor + 1 := by
  unfold roundQuotient
  dsimp only
  split <;> omega

end Formulae.Number
