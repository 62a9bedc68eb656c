import Formulae.Number.Decimal

/-!
# The shortest decimal of a double

Between its two neighbours a double stands for an interval of reals: those that are nearer to it
than to either neighbour, and the two midpoints as well if its significand is even. The shortest
decimal is the one with the fewest digits in that interval; of several, the nearest one, and of two
equally near ones the greater.

On the grid of the multiples of `10 ^ k` only the two neighbours of the double itself can be in the
interval before any other, so the search looks at these two for one digit, two digits, and so on.
Seventeen digits always suffice; were they not to, the exact decimal would stand in.
-/

namespace Formulae.Number

/-- The interval of a double in multiples of `1 / unit`: its two ends, the double itself, and
whether the ends belong to it. -/
structure Interval where
  low : Nat
  middle : Nat
  high : Nat
  unit : Nat
  closed : Bool
deriving Repr, DecidableEq

/-- The interval of the double `significand * 2 ^ exponent`, counted in quarters of the last place.
The neighbour below a power of two is half as far away as the one above, except at the smallest
exponent. -/
def Interval.ofDouble (significand : Nat) (exponent : Int) : Interval :=
  let below := if significand = Nat.pow 2 52 ∧ exponent ≠ -1074 then 1 else 2
  let scale := Nat.pow 2 (exponent - 2).toNat
  { low := (4 * significand - below) * scale
    middle := 4 * significand * scale
    high := (4 * significand + 2) * scale
    unit := Nat.pow 2 (2 - exponent).toNat
    closed := significand % 2 = 0 }

/-- Whether the quotient `numerator / denominator` of the same unit lies in the interval. -/
def Interval.contains (i : Interval) (numerator denominator : Nat) : Bool :=
  if i.closed then i.low * denominator ≤ numerator && numerator ≤ i.high * denominator
  else i.low * denominator < numerator && numerator < i.high * denominator

/-- The number of digits before the decimal point of `numerator / denominator`; a count below one
tells how many zeros follow the point. -/
def decade (numerator denominator : Nat) : Int :=
  if denominator ≤ numerator then digitCount (numerator / denominator)
  else 1 - digitCount ((denominator - 1) / numerator)

/-- The multiple of `10 ^ k` in the interval that is nearest to the double, the greater one of two
equally near. -/
def Interval.nearest? (i : Interval) (k : Int) : Option Decimal :=
  let up := Nat.pow 10 k.toNat * i.unit
  let down := Nat.pow 10 (-k).toNat
  let below := i.middle * down / up
  let hasBelow := i.contains (below * up) down
  let hasAbove := i.contains ((below + 1) * up) down
  -- the double lies below the middle of the two multiples
  let nearerBelow := 2 * (i.middle * down) < (2 * below + 1) * up
  if hasBelow && (nearerBelow || !hasAbove) then some ⟨below, k⟩
  else if hasAbove then some ⟨below + 1, k⟩
  else none

/-- The decimal that equals `significand * 2 ^ exponent`: a negative power of two is a power of five
over the same power of ten. -/
def exactDecimal (significand : Nat) (exponent : Int) : Decimal :=
  if 0 ≤ exponent then ⟨significand * Nat.pow 2 exponent.toNat, 0⟩
  else ⟨significand * Nat.pow 5 (-exponent).toNat, exponent⟩

/-- The shortest decimal of the positive double `significand * 2 ^ exponent`. -/
def shortestPositive (significand : Nat) (exponent : Int) : Decimal :=
  let i := Interval.ofDouble significand exponent
  let first := decade i.middle i.unit
  match (List.range 17).findSome? fun n : Nat => i.nearest? (first - 1 - (n : Int)) with
  | some d => d.normal
  | none => exactDecimal significand exponent

/-- The shortest decimal of the double `significand * 2 ^ exponent`. -/
def shortest (significand : Nat) (exponent : Int) : Decimal :=
  if significand = 0 then ⟨0, 0⟩ else shortestPositive significand exponent

end Formulae.Number
