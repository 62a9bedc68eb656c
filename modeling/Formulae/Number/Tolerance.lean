import Formulae.Number.Double

/-!
# Comparing with a tolerance

Formulas never ask whether two doubles are the same double. Two values count as equal when they are
no further apart than a tolerance of a little less than one unit of the last of a number of decimal
places: with five places `0.00001 - 0.000001 - 0.0000001`. The other comparisons are made of this
one and the order of doubles. Truth is the other way round: a number holds when it rounds to at
least one.
-/

namespace Formulae.Number

/-! ## Powers of ten -/

/-- `acc * base ^ n` by repeated squaring, each product rounded. -/
def powerBySquaring (acc base : Float) (n : Nat) : Float :=
  let acc := if n % 2 = 1 then acc * base else acc
  if n / 2 = 0 then acc else powerBySquaring acc (base * base) (n / 2)
termination_by n
decreasing_by omega

/-- A power of ten, a negative one as the reciprocal of the positive one. -/
def powerOfTen (n : Int) : Float :=
  let power := powerBySquaring 1.0 10.0 n.natAbs
  if n < 0 then 1.0 / power else power

/-! ## Comparisons -/

/-- The largest difference of equal values. The number of places is a 32-bit word with a sign, and
so are the three exponents made of it. -/
def tolerance (places : UInt32) : Float :=
  let unit (n : Int32) : Float := powerOfTen (-n).toInt
  let digits := places.toInt32
  unit digits - unit (digits + 1) - unit (digits + 2)

/-- Equal up to the tolerance. -/
def isEqual (places : UInt32) (x y : Float) : Bool :=
  (x - y).abs ≤ tolerance places

/-- Greater, or equal up to the tolerance. -/
def isAtLeast (places : UInt32) (x y : Float) : Bool :=
  isEqual places x y || x > y

/-- Less, or equal up to the tolerance. -/
def isAtMost (places : UInt32) (x y : Float) : Bool :=
  isEqual places x y || x < y

/-- Greater by more than the tolerance. -/
def isGreater (places : UInt32) (x y : Float) : Bool :=
  !isEqual places x y && x > y

/-- Less by more than the tolerance. -/
def isLess (places : UInt32) (x y : Float) : Bool :=
  !isEqual places x y && x < y

/-! ## Truth and counts -/

/-- The nearest integer, a half going up, within the range of a 64-bit word with a sign. -/
def roundHalfUp (x : Float) : Int :=
  clampedFloor (-9223372036854775808) 9223372036854775807 (x + 0.5)

/-- Whether a number counts as true: its magnitude rounds to at least one. -/
def isTrue (x : Float) : Bool :=
  1 ≤ roundHalfUp x.abs

/-- The number of a truth value. -/
def ofTruth (b : Bool) : Float :=
  if b then 1.0 else 0.0

/-- The number of times that a number asks for: rounded, and none if negative. -/
def countOf (x : Float) : Nat :=
  (roundHalfUp x).toNat

/-- A quotient that is zero when the divisor is. -/
def safeDivide (x y : Float) : Float :=
  if y == 0.0 then 0.0 else x / y

end Formulae.Number
