import Formulae.Number.Layout
import Formulae.Number.Reading
import Formulae.Number.Tolerance
import Formulae.Text.Search
import Formulae.Evaluation.Call

/-!
# Text functions

The built-in functions on texts. Lengths and places are counted in characters, from zero on. A
count is a number rounded to an integer, negative ones to nothing. The functions that cut a piece
out of a text have a number too: the one that the piece denotes.
-/

namespace Formulae.Evaluation

open Number

/-! ## Numbers of texts -/

/-- The number that a text denotes. -/
def parsed (c : Call) (text : String) : Program Float :=
  Program.ofOption (read? text) (c.errorNaming .parseError text)

def toDouble (c : Call) : Program Float := do
  parsed c (← c.text 0)

/-- Whether the text of the argument is blank. -/
def isEmpty (c : Call) : Program Float := do
  return ofTruth (Text.trim (← c.text 0).toList).isEmpty

def length (c : Call) : Program Float := do
  return Float.ofNat (← c.text 0).length

/-- The number of characters before the first text in the second one; `-1` if it is not there. -/
def positionOf (needle text : String) : Float :=
  match Text.find? needle.toList text.toList with
  | some count => Float.ofNat count
  | none => -1.0

def position (c : Call) : Program Float := do
  let needle ← c.text 0
  let text ← c.text 1
  return positionOf needle text

/-! ## Comparisons -/

def lowered (text : String) : String :=
  String.ofList (Text.lower text.toList)

/-- How far a text stands behind another one, as a number. -/
def distance (left right : String) : Float :=
  Float.ofInt (Text.distance left.toList right.toList)

def equals (c : Call) : Program Float := do
  let left ← c.text 0
  let right ← c.text 1
  return ofTruth (left == right)

/-- Whether both arguments have the same text in lower case. -/
def equalsIgnoreCase (c : Call) : Program Float := do
  let left ← c.text 0
  let right ← c.text 1
  return ofTruth (lowered left == lowered right)

def compareTo (c : Call) : Program Float := do
  let left ← c.text 0
  let right ← c.text 1
  return distance left right

def compareToIgnoreCase (c : Call) : Program Float := do
  let left ← c.text 0
  let right ← c.text 1
  return distance (lowered left) (lowered right)

/-! ## Pieces -/

/-- The first characters of a text, as many as a number says. -/
def leftOf (text : String) (count : Float) : String :=
  String.ofList (text.toList.take (countOf count))

/-- The last characters of a text, as many as a number says. -/
def rightOf (text : String) (count : Float) : String :=
  String.ofList (text.toList.drop (text.length - countOf count))

/-- The characters of a text from a place on, as many as a number says. -/
def substringOf (text : String) (start count : Float) : String :=
  String.ofList ((text.toList.drop (countOf start)).take (countOf count))

def left (c : Call) : Program String := do
  let text ← c.text 0
  let count ← c.number 1
  return leftOf text count

def right (c : Call) : Program String := do
  let text ← c.text 0
  let count ← c.number 1
  return rightOf text count

def substring (c : Call) : Program String := do
  let text ← c.text 0
  let start ← c.number 1
  let count ← c.number 2
  return substringOf text start count

/-- The number that a piece denotes. -/
def numberOf (piece : Call → Program String) (c : Call) : Program Float := do
  parsed c (← piece c)

/-! ## New texts -/

/-- The texts of formulas, joined behind a text. -/
def concatenateFrom (done : String) : List String → Program String
  | [] => pure done
  | formula :: formulas => do
    let text ← Program.evaluateText formula
    concatenateFrom (done ++ text) formulas

def concatenate (c : Call) : Program String :=
  concatenateFrom "" c.args

/-- The largest text that may be made by repetition, in bytes. -/
def maxReplicated : Nat := 16777216

/-- A text a number of times; nothing is done for the empty one. -/
def repeated (text : String) (times : Nat) : String :=
  if text.isEmpty then "" else Nat.repeat (· ++ text) times ""

/-- A text and as many more copies of it as a number says, if that is not too large. -/
def replicated? (text : String) (count : Float) : Option String :=
  let copies := countOf count + 1
  if text.utf8ByteSize * copies ≤ maxReplicated then some (repeated text copies) else none

def replicate (c : Call) : Program String := do
  let text ← c.text 0
  let count ← c.number 1
  c.orFail (replicated? text count)

def toText (c : Call) : Program String := do
  return format (← c.number 0)

def upperCase (c : Call) : Program String := do
  return String.ofList (Text.upper (← c.text 0).toList)

def lowerCase (c : Call) : Program String := do
  return lowered (← c.text 0)

end Formulae.Evaluation
