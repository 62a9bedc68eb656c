import Formulae.Number.Rounding
import Formulae.Number.Tolerance
import Formulae.Evaluation.Call

/-!
# Logic and arithmetic

The built-in functions that choose, compare, compute and round. A number counts as true when it
rounds to at least one; a choice between two texts is stricter and asks for one or more.

`if`, `and` and `or` evaluate their arguments from left to right, and none behind the one that
decides. `round` evaluates both of its arguments, and rounds the count of decimal places itself to a
32-bit word with a sign; a tie of the number goes to the even neighbour.
-/

namespace Formulae.Evaluation

open Number

/-! ## Choices -/

/-- The second argument if the first one is true, else the third. -/
def chooseNumber (c : Call) : Program Float := do
  if isTrue (← c.number 0) then c.number 1 else c.number 2

/-- The second argument as a text if the first one is at least one, else the third. -/
def chooseText (c : Call) : Program String := do
  if isAtLeast c.places (← c.number 0) 1.0 then c.text 1 else c.text 2

/-- Whether one of some formulas has a truth value; none is evaluated behind the first that has. -/
def decides (truth : Bool) : List String → Program Bool
  | [] => pure false
  | formula :: formulas => do
    if isTrue (← Program.evaluate formula) = truth then pure true
    else decides truth formulas

def conjunction (c : Call) : Program Float := do
  return ofTruth (!(← decides false c.args))

def disjunction (c : Call) : Program Float := do
  return ofTruth (← decides true c.args)

/-- Whether the argument is not true. -/
def negation (c : Call) : Program Float := do
  return ofTruth (!isTrue (← c.number 0))

/-- Whether the first argument lies between the other two, both included. -/
def between (c : Call) : Program Float := do
  let value ← c.number 0
  let low ← c.number 1
  let high ← c.number 2
  return ofTruth (isAtLeast c.places value low && isAtMost c.places value high)

/-- Fails with the argument as the message: the text it evaluates to, or its own if it fails to. -/
def raiseError (c : Call) : Program Float := do
  let formula ← c.arg 0
  let text ← Program.attemptText formula
  Program.error (c.errorNaming .userException (text.getD formula))

/-! ## Arithmetic -/

/-- The first argument divided by the second one; zero if that is zero. -/
def quotient (c : Call) : Program Float := do
  let x ← c.number 0
  let y ← c.number 1
  return safeDivide x y

/-- The smallest whole number not below the argument. -/
def ceilingOf (c : Call) : Program Float := do
  return ceiling (← c.number 0)

/-- The largest whole number not above the argument. -/
def floorOf (c : Call) : Program Float := do
  return floor (← c.number 0)

/-! ## Rounding -/

/-- The count of places that a number stands for. -/
def placesOf (x : Float) : Int :=
  max (-2147483648) (min 2147483647 (roundHalfUp x))

/-- The first argument rounded to as many places as the second one says. -/
def round (c : Call) : Program Float := do
  let x ← c.number 0
  let places := placesOf (← c.number 1)
  match roundTo? .halfEven x places with
  | some rounded => pure rounded
  | none => Program.overflow

end Formulae.Evaluation
