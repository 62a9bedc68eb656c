import Formulae.Function.Builtin
import Formulae.Evaluation.Logic
import Formulae.Evaluation.Texts
import Formulae.Evaluation.Aggregate
import Formulae.Evaluation.Dates

/-!
# Calling built-in functions

What each built-in function does in each channel, if it does anything there. A call is checked
before it is evaluated: first whether the function belongs to the channel, then the number of
arguments.
-/

namespace Formulae.Builtin

open Evaluation

/-- What a function does in the numeric channel. -/
def numeric? : Builtin → Option (Call → Program Float)
  | conditional => some chooseNumber
  | conjunction => some Evaluation.conjunction
  | disjunction => some Evaluation.disjunction
  | negation => some Evaluation.negation
  | between => some Evaluation.between
  | raiseError => some Evaluation.raiseError
  | safeDivide => some quotient
  | round => some Evaluation.round
  | ceiling => some ceilingOf
  | floor => some floorOf
  | toDouble => some Evaluation.toDouble
  | empty => some isEmpty
  | length => some Evaluation.length
  | position => some Evaluation.position
  | equals => some Evaluation.equals
  | equalsIgnoreCase => some Evaluation.equalsIgnoreCase
  | compareTo => some Evaluation.compareTo
  | compareToIgnoreCase => some Evaluation.compareToIgnoreCase
  | left => some (numberOf Evaluation.left)
  | right => some (numberOf Evaluation.right)
  | substring => some (numberOf Evaluation.substring)
  | sum => some Evaluation.sum
  | maximum => some Evaluation.maximum
  | minimum => some Evaluation.minimum
  | count => some Evaluation.count
  | average => some Evaluation.average
  | day => some (fieldOf (·.date.day))
  | week => some (fieldOf (·.week))
  | month => some (fieldOf (·.date.month))
  | year => some (fieldOf (·.date.year))
  | hour => some (fieldOf (·.time.hour))
  | minute => some (fieldOf (·.time.minute))
  | second => some (fieldOf (·.time.second))
  | previousMonday => some (moved Calendar.previousMonday)
  | startOfMonth => some (moved Calendar.startOfMonth)
  | endOfMonth => some (moved Calendar.endOfMonth)
  | toDate => some Evaluation.toDate
  | toDateTime => some Evaluation.toDateTime
  | distanceFromNow => some Evaluation.distanceFromNow
  | distanceFromToday => some Evaluation.distanceFromToday
  | textToDateTime => some Evaluation.textToDateTime
  | concatenate | replicate | toText | upperCase | lowerCase => none

/-- What a function does in the text channel. -/
def textual? : Builtin → Option (Call → Program String)
  | conditional => some chooseText
  | left => some Evaluation.left
  | right => some Evaluation.right
  | substring => some Evaluation.substring
  | concatenate => some Evaluation.concatenate
  | replicate => some Evaluation.replicate
  | toText => some Evaluation.toText
  | upperCase => some Evaluation.upperCase
  | lowerCase => some Evaluation.lowerCase
  | sum => some sumText
  | maximum => some maximumText
  | minimum => some minimumText
  | count => some countText
  | _ => none

/-- Evaluates a call with what its function does in a channel. -/
def checked {α : Type} (f : Builtin) (action : Option (Call → Program α)) (c : Call) :
    Program α :=
  match action with
  | none => Program.error (c.error .functionUnknown)
  | some act =>
    if f.arity.admits c.args.length then act c else Program.error (c.error .wrongParamCount)

def number (f : Builtin) (c : Call) : Program Float :=
  f.checked f.numeric? c

def text (f : Builtin) (c : Call) : Program String :=
  f.checked f.textual? c

end Formulae.Builtin
