import Formulae.Text.Case

/-!
# Built-in functions

The table of the built-in functions: their names and how many arguments they take. A name is looked
up in lower case, in the full sense of the word, so that `IF`, `If` and `if` are the same function.

Main statements: `mem_all` (the table is complete) and `ofName?_name` (every function is found by
its name).
-/

namespace Formulae

/-- How many arguments a function takes. -/
structure Arity where
  least : Nat
  /-- `none` when there may be any number of them. -/
  most : Option Nat
deriving Repr, DecidableEq

namespace Arity

/-- Whether a function can be called with so many arguments. -/
def admits (a : Arity) (count : Nat) : Bool :=
  a.least ≤ count && a.most.all (count ≤ ·)

/-- A fixed number of arguments. -/
def exactly (n : Nat) : Arity := ⟨n, some n⟩

/-- A number of arguments or more. -/
def atLeast (n : Nat) : Arity := ⟨n, none⟩

/-- A fixed number of arguments admits that number only. -/
theorem admits_exactly {n count : Nat} : (exactly n).admits count = true ↔ count = n := by
  rw [admits, Bool.and_eq_true, exactly, Option.all_some, decide_eq_true_iff, decide_eq_true_iff]
  show n ≤ count ∧ count ≤ n ↔ count = n
  omega

/-- A least number of arguments admits that number and any greater one. -/
theorem admits_atLeast {n count : Nat} : (atLeast n).admits count = true ↔ n ≤ count := by
  rw [admits, atLeast, Option.all_none, Bool.and_true, decide_eq_true_iff]

end Arity

inductive Builtin
  | conditional | conjunction | disjunction | negation | between | raiseError
  | safeDivide | round | ceiling | floor | toDouble
  | empty | length | position | equals | equalsIgnoreCase | compareTo | compareToIgnoreCase
  | left | right | substring | concatenate | replicate | toText | upperCase | lowerCase
  | sum | maximum | minimum | count | average
  | day | week | month | year | hour | minute | second
  | previousMonday | startOfMonth | endOfMonth | toDate | toDateTime
  | distanceFromNow | distanceFromToday | textToDateTime
deriving Repr, DecidableEq

namespace Builtin

def all : List Builtin :=
  [conditional, conjunction, disjunction, negation, between, raiseError,
    safeDivide, round, ceiling, floor, toDouble,
    empty, length, position, equals, equalsIgnoreCase, compareTo, compareToIgnoreCase,
    left, right, substring, concatenate, replicate, toText, upperCase, lowerCase,
    sum, maximum, minimum, count, average,
    day, week, month, year, hour, minute, second,
    previousMonday, startOfMonth, endOfMonth, toDate, toDateTime,
    distanceFromNow, distanceFromToday, textToDateTime]

/-- The name of a function in formulas, in lower case. -/
def name : Builtin → String
  | conditional => "if"
  | conjunction => "and"
  | disjunction => "or"
  | negation => "not"
  | between => "between"
  | raiseError => "raiseerror"
  | safeDivide => "safediv"
  | round => "round"
  | ceiling => "ceil"
  | floor => "floor"
  | toDouble => "todouble"
  | empty => "empty"
  | length => "len"
  | position => "pos"
  | equals => "equals"
  | equalsIgnoreCase => "equalsignorecase"
  | compareTo => "compareto"
  | compareToIgnoreCase => "comparetoignorecase"
  | left => "left"
  | right => "right"
  | substring => "substr"
  | concatenate => "concatenate"
  | replicate => "replicate"
  | toText => "tostr"
  | upperCase => "uppercase"
  | lowerCase => "lowercase"
  | sum => "sum"
  | maximum => "max"
  | minimum => "min"
  | count => "count"
  | average => "avg"
  | day => "getday"
  | week => "getweek"
  | month => "getmonth"
  | year => "getyear"
  | hour => "gethour"
  | minute => "getminute"
  | second => "getsecond"
  | previousMonday => "previousmonday"
  | startOfMonth => "startofthemonth"
  | endOfMonth => "endofthemonth"
  | toDate => "todate"
  | toDateTime => "todatetime"
  | distanceFromNow => "distancefromnow"
  | distanceFromToday => "distancefromtoday"
  | textToDateTime => "stringtodatetime"

def arity : Builtin → Arity
  | conditional => .exactly 3
  | conjunction => .atLeast 2
  | disjunction => .atLeast 2
  | negation => .exactly 1
  | between => .exactly 3
  | raiseError => .exactly 1
  | safeDivide => .exactly 2
  | round => .exactly 2
  | ceiling => .exactly 1
  | floor => .exactly 1
  | toDouble => .exactly 1
  | empty => .exactly 1
  | length => .exactly 1
  | position => .exactly 2
  | equals => .exactly 2
  | equalsIgnoreCase => .exactly 2
  | compareTo => .exactly 2
  | compareToIgnoreCase => .exactly 2
  | left => .exactly 2
  | right => .exactly 2
  | substring => .exactly 3
  | concatenate => .atLeast 2
  | replicate => .exactly 2
  | toText => .exactly 1
  | upperCase => .exactly 1
  | lowerCase => .exactly 1
  | sum => .atLeast 1
  | maximum => .atLeast 1
  | minimum => .atLeast 1
  | count => .atLeast 1
  | average => .atLeast 1
  | day => .exactly 1
  | week => .exactly 1
  | month => .exactly 1
  | year => .exactly 1
  | hour => .exactly 1
  | minute => .exactly 1
  | second => .exactly 1
  | previousMonday => .exactly 1
  | startOfMonth => .exactly 1
  | endOfMonth => .exactly 1
  | toDate => .exactly 3
  | toDateTime => .exactly 6
  | distanceFromNow => .exactly 1
  | distanceFromToday => .exactly 1
  | textToDateTime => .exactly 2

/-- The function of a name, in any case. -/
def ofName? (name : String) : Option Builtin :=
  let key := String.ofList (Text.lower name.toList)
  all.find? fun f => f.name == key

theorem mem_all (f : Builtin) : f ∈ all := by
  cases f <;> decide

/-- Every function is found by its name. -/
theorem ofName?_name (f : Builtin) : ofName? f.name = some f := by
  cases f <;> decide +kernel

end Builtin

end Formulae
