import Formulae.Text.Blank
import Formulae.Text.Search
import Formulae.Text.Case

/-!
# Range keywords

An aggregate function may take its values from outside: `sum(childs(amount))` asks for the amounts
of all children of the current record. A keyword is found anywhere in the argument, without regard
to the case of ASCII letters. The keywords are tried in a fixed order, which matters since some are
parts of others: `parent` is found in `parents` before `parents` is looked for.
-/

namespace Formulae

/-- The two kinds of results a formula can have. -/
inductive Channel
  | numeric
  | textual
deriving Repr, DecidableEq

/-- A value of a range. -/
inductive RangeValue
  | number (value : Float)
  | text (value : String)

/-- The keywords that name a range. -/
inductive RangeKeyword
  | childsNotNull
  | parentNotNull
  | parentsNotNull
  | childs
  | parent
  | parents
  | this
deriving Repr, DecidableEq

namespace RangeKeyword

/-- The keywords in the order in which they are tried. -/
def searchOrder : List RangeKeyword :=
  [childsNotNull, parentNotNull, parentsNotNull, childs, parent, parents, this]

/-- A keyword as it is written in formulas, in lower case. -/
def keyword : RangeKeyword → String
  | childsNotNull => "childsnotnull"
  | parentNotNull => "parentnotnull"
  | parentsNotNull => "parentsnotnull"
  | childs => "childs"
  | parent => "parent"
  | parents => "parents"
  | this => "this"

/-- The first keyword in the search order that stands in a text, and the number of characters up to
behind its first occurrence. -/
def find? (cs : List Char) : Option (RangeKeyword × Nat) :=
  let lowered := cs.map Text.asciiLower
  searchOrder.findSome? fun k =>
    (Text.find? k.keyword.toList lowered).map fun before => (k, before + k.keyword.length)

/-- The keyword found in a text, and the byte offset behind it. -/
def findIn? (text : String) : Option (RangeKeyword × Nat) :=
  (find? text.toList).map fun (k, count) => (k, Text.byteLength (text.toList.take count))

/-- The text between the parentheses that make up the rest of an argument; `none` unless there is
something between an opening one at its beginning and a closing one at its end. -/
def insideParens? (cs : List Char) : Option (List Char) :=
  let cs := Text.trim cs
  if 2 < cs.length && cs.head? == some '(' && cs.getLast? == some ')' then
    some (Text.trim (cs.tail.dropLast))
  else none

/-- No keyword is missing from the search order. -/
theorem mem_searchOrder (k : RangeKeyword) : k ∈ searchOrder := by
  cases k <;> decide

end RangeKeyword

end Formulae
