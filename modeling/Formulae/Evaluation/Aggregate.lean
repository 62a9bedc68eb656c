import Formulae.Number.Layout
import Formulae.Number.Reading
import Formulae.Text.Search
import Formulae.Evaluation.Call

/-!
# Aggregates

Sums, extremes, counts and means of the values of the arguments or, when the only argument names a
range, of the values that a provider has for it. All values are collected before any is used. Values
of the other kind are converted: numbers to texts by writing them, texts to numbers by reading them.
-/

namespace Formulae.Evaluation

open Number

/-! ## Collecting -/

/-- The range that an argument names, and the text between its parentheses if it has any. -/
def rangeOf? (arg : String) : Option (RangeKeyword × Option String) :=
  let cs := Text.trim arg.toList
  (RangeKeyword.find? cs).map fun (keyword, count) =>
    (keyword, (RangeKeyword.insideParens? (cs.drop count)).map String.ofList)

/-- The value of a formula in a channel. -/
def evaluateIn (channel : Channel) (formula : String) : Program RangeValue :=
  match channel with
  | .numeric => RangeValue.number <$> Program.evaluate formula
  | .textual => RangeValue.text <$> Program.evaluateText formula

/-- The values of formulas in a channel. -/
def evaluateAll (channel : Channel) : List String → Program (List RangeValue)
  | [] => pure []
  | formula :: formulas => do
    let value ← evaluateIn channel formula
    return value :: (← evaluateAll channel formulas)

/-- The range that the only argument of a call names. -/
def onlyRange? (args : List String) : Option (RangeKeyword × Option String) :=
  match args with
  | [arg] => rangeOf? arg
  | _ => none

/-- The values that an aggregate is taken of. -/
def collect (c : Call) (channel : Channel) : Program (List RangeValue) :=
  match onlyRange? c.args with
  | none => evaluateAll channel c.args
  | some (_, none) => Program.error (c.error .syntaxError)
  | some (keyword, some inner) => do
    let values ← Program.request (.range keyword inner channel)
    Program.ofOption values (c.errorNaming .functionError keyword.keyword)

def numberOfValue (c : Call) : RangeValue → Program Float
  | .number x => pure x
  | .text s => Program.ofOption (read? s) (c.errorNaming .parseError s)

def textOfValue : RangeValue → String
  | .number x => format x
  | .text s => s

def numbersOf (c : Call) : List RangeValue → Program (List Float)
  | [] => pure []
  | value :: values => do
    let x ← numberOfValue c value
    return x :: (← numbersOf c values)

def numbers (c : Call) : Program (List Float) := do
  numbersOf c (← collect c .numeric)

def texts (c : Call) : Program (List String) := do
  return (← collect c .textual).map textOfValue

/-! ## Numbers -/

/-- The sum from left to right. It starts from the negative zero, which adds nothing to any
number. -/
def sumOf (xs : List Float) : Float :=
  xs.foldl (· + ·) (-0.0)

/-- The first value with no greater one after it; `0` if there is no value. -/
def maximumOf : List Float → Float
  | [] => 0.0
  | x :: xs => xs.foldl (fun best y => if y > best then y else best) x

/-- The first value with no smaller one after it; `0` if there is no value. -/
def minimumOf : List Float → Float
  | [] => 0.0
  | x :: xs => xs.foldl (fun best y => if y < best then y else best) x

/-- The arithmetic mean; `0` if there is no value. -/
def averageOf (xs : List Float) : Float :=
  if xs.isEmpty then 0.0 else sumOf xs / Float.ofNat xs.length

def sum (c : Call) : Program Float := do
  return sumOf (← numbers c)

def maximum (c : Call) : Program Float := do
  return maximumOf (← numbers c)

def minimum (c : Call) : Program Float := do
  return minimumOf (← numbers c)

def average (c : Call) : Program Float := do
  return averageOf (← numbers c)

def count (c : Call) : Program Float := do
  return Float.ofNat (← collect c .numeric).length

/-! ## Texts -/

/-- Whether a text stands before another one in the order of code points. -/
def isBefore (left right : String) : Bool :=
  Text.precedes left.toList right.toList

/-- The last text in order; the empty one if there is none. -/
def lastOf : List String → String
  | [] => ""
  | s :: ss => ss.foldl (fun best t => if isBefore best t then t else best) s

/-- The first text in order; the empty one if there is none. -/
def firstOf : List String → String
  | [] => ""
  | s :: ss => ss.foldl (fun best t => if isBefore t best then t else best) s

def sumText (c : Call) : Program String := do
  return String.join (← texts c)

def maximumText (c : Call) : Program String := do
  return lastOf (← texts c)

def minimumText (c : Call) : Program String := do
  return firstOf (← texts c)

def countText (c : Call) : Program String := do
  return toString (← collect c .textual).length

end Formulae.Evaluation
