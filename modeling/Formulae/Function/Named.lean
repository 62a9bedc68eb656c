import Formulae.Text.Blank
import Formulae.Text.Case
import Formulae.Number.Double

/-!
# Named operations and constants

Besides the built-in functions the language knows a few names of its own, compared without regard
to the case of ASCII letters: mathematical functions, whose operand is written in place instead of
being cut out as an argument; functions that trim spaces; and constants.
-/

namespace Formulae

/-- The entry of a table under a name, in any ASCII case. -/
def lookupIgnoringCase {α : Type} (entries : List (String × α)) (name : String) : Option α :=
  (entries.find? fun entry => Text.sameIgnoringCase entry.1.toList name.toList).map Prod.snd

/-! ## Mathematical functions -/

/-- A function of one number whose operand is part of the formula around it. -/
inductive MathFunction
  | trunc
  | int
  | frac
  | sin
  | cos
  | tan
deriving Repr, DecidableEq

namespace MathFunction

def ofName? (name : String) : Option MathFunction :=
  lookupIgnoringCase
    [("trunc", trunc), ("int", int), ("frac", frac), ("sin", sin), ("cos", cos), ("tan", tan)] name

/-- The value of a function. Both `trunc` and `int` go down to a whole number, and `frac` is what
is left then. -/
def apply : MathFunction → Float → Float
  | trunc, x => Number.floor x
  | int, x => Number.floor x
  | frac, x => x - Number.floor x
  | sin, x => x.sin
  | cos, x => x.cos
  | tan, x => x.tan

end MathFunction

/-! ## Trimming functions -/

/-- A function that takes plain spaces off a text. -/
inductive TrimFunction
  | both
  | left
  | right
deriving Repr, DecidableEq

namespace TrimFunction

def ofName? (name : String) : Option TrimFunction :=
  lookupIgnoringCase [("trim", both), ("ltrim", left), ("rtrim", right)] name

/-- A text without the spaces at one or both ends. -/
def apply (f : TrimFunction) (text : String) : String :=
  let isSpace := fun c : Char => c == ' '
  let cs := text.toList
  String.ofList (match f with
    | both => Text.trimBy isSpace cs
    | left => cs.dropWhile isSpace
    | right => Text.trimEndBy isSpace cs)

end TrimFunction

/-! ## Constants -/

/-- A name that stands for a number. -/
inductive Constant
  | now
  | today
  | true
  | false
  | pi
deriving Repr, DecidableEq

namespace Constant

def ofName? (name : String) : Option Constant :=
  lookupIgnoringCase
    [("now", now), ("today", today), ("true", true), ("false", false), ("pi", pi)] name

/-- The number of a constant that does not depend on the time. -/
def number? : Constant → Option Float
  | true => some 1.0
  | false => some 0.0
  | pi => some 3.141592653589793
  | now | today => none

end Constant

end Formulae
