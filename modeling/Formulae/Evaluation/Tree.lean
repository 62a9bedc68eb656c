import Formulae.Grammar.Numeric
import Formulae.Grammar.Textual
import Formulae.Evaluation.Dispatch

/-!
# Evaluating trees

The trees of formulas become programs, which evaluate them from left to right, every part before
what follows it. The operations on numbers are those of doubles, except that comparisons use the
tolerance of the settings and the bitwise ones work on words of 32 bits, to which their operands go
down.
-/

namespace Formulae

open Number

/-! ## Operations -/

/-- The word that a number goes down to, kept within 32 bits with a sign. -/
def toWord (x : Float) : Int32 :=
  Int32.ofInt (clampedFloor (-2147483648) 2147483647 x)

def ofWord (w : Int32) : Float :=
  Float.ofInt w.toInt

namespace Grammar

/-- The value of an operation on two numbers. A remainder is taken of whole numbers, and a
percentage is a hundredth of a product. -/
def BinaryOperation.apply (places : UInt32) : BinaryOperation → Float → Float → Float
  | or, x, y => ofWord (toWord x ||| toWord y)
  | xor, x, y => ofWord (toWord x ^^^ toWord y)
  | and, x, y => ofWord (toWord x &&& toWord y)
  | less, x, y => ofTruth (isLess places x y)
  | atMost, x, y => ofTruth (isAtMost places x y)
  | equal, x, y => ofTruth (isEqual places x y)
  | different, x, y => ofTruth (!isEqual places x y)
  | atLeast, x, y => ofTruth (isAtLeast places x y)
  | greater, x, y => ofTruth (isGreater places x y)
  | add, x, y => x + y
  | subtract, x, y => x - y
  | multiply, x, y => x * y
  | divide, x, y => x / y
  | modulo, x, y => remainder (floor x) (floor y)
  | percent, x, y => x * y / 100.0
  | power, x, y => Float.pow x y

/-- The value of an operation on one number. A negative is taken from zero, and `!` holds of what
goes down to zero. -/
def PrefixOperation.apply : PrefixOperation → Float → Float
  | not, x => ofTruth (floor x == 0.0)
  | invert, x => ofWord (~~~toWord x)
  | plus, x => x
  | minus, x => 0.0 - x

/-! ## Names and calls -/

/-- The number of a constant. -/
def constantValue (x : Context) : Constant → Option Float
  | .now => some (Evaluation.presentHour x)
  | .today => (Evaluation.todayHour x).toOption
  | constant => constant.number?

/-- The number of a name: that of a constant, or what a provider says. -/
def valueOf (x : Context) (name : String) (unknown : FormulaError) : Program Float :=
  match Constant.ofName? name with
  | some constant => Program.ofOption (constantValue x constant) unknown
  | none => do Program.ofOption (← Program.request (.value name)) unknown

def textValueOf (name : String) (unknown : FormulaError) : Program String := do
  Program.ofOption (← Program.request (.textValue name)) unknown

/-- The number of a call of a function that is not built in. -/
def userNumber (c : Call) : Program Float :=
  if c.context.isAlone then Program.error (c.error .functionUnknown)
  else do
    let reply ← Program.request (.numericFunction c.name c.args)
    Program.ofOption reply (c.error .externalFunctionError)

def callNumber (c : Call) : Program Float :=
  match Builtin.ofName? c.name with
  | some f => f.number c
  | none => userNumber c

/-- The texts of the arguments as a user function gets them: an only argument is evaluated. -/
def userArgs : List String → Program (List String)
  | [arg] => do return [← Program.evaluateText arg]
  | args => pure args

/-- The text of a call of a function that is not built in. -/
def userText (c : Call) : Program String := do
  let args ← userArgs c.args
  match TrimFunction.ofName? c.name, args with
  | some f, [arg] => pure (f.apply arg)
  | _, args =>
    if c.context.isAlone then Program.error (c.error .functionUnknown)
    else do
      let reply ← Program.request (.textFunction c.name args)
      Program.ofOption reply (c.error .externalFunctionError)

def callText (c : Call) : Program String :=
  match Builtin.ofName? c.name with
  | some f => f.text c
  | none => userText c

/-! ## Trees -/

def NumericTree.evaluate (x : Context) (formula : String) : NumericTree → Program Float
  | number x => pure x
  | value name position =>
    valueOf x name ⟨.functionError, some name, formula, position⟩
  | call name args position => callNumber ⟨x, name, args, formula, position⟩
  | apply f operand => do return f.apply (← operand.evaluate x formula)
  | prefixed op operand => do return op.apply (← operand.evaluate x formula)
  | binary op left right => do
    let l ← left.evaluate x formula
    let r ← right.evaluate x formula
    return op.apply x.settings.decimalNumbers l r
  | sequence first second => do
    let _ ← first.evaluate x formula
    second.evaluate x formula
  | failure complaint => Program.error (complaint.toError formula)

def TextTree.evaluate (x : Context) (formula : String) : TextTree → Program String
  | literal text => pure text
  | value name position =>
    textValueOf name ⟨.functionError, some name, formula, position⟩
  | call name args position => callText ⟨x, name, args, formula, position⟩
  | append left right => do
    let l ← left.evaluate x formula
    let r ← right.evaluate x formula
    return l ++ r
  | sequence first second => do
    let _ ← first.evaluate x formula
    second.evaluate x formula
  | failure complaint => Program.error (complaint.toError formula)

end Grammar

end Formulae
