import Formulae.Text.Blank
import Formulae.Calendar.Moment

/-!
# Date patterns

A pattern such as `DD-MM-YYYY HH:MI` tells how a date is written. Read from the left, it is a list
of fields and characters; a field's letters are all in upper or all in lower case, and the longer
name of two is taken. `directives` writes a pattern in the notation of percent directives, in which
a percent sign stands for itself only when it is doubled.

A text is read along the items of a pattern. White space in a pattern stands for any amount of it in
the text, even none; a number may have white space before it; other characters stand for
themselves. A field that is named twice has to be the same both times.
-/

namespace Formulae.Calendar

/-! ## Items -/

inductive Field
  | year
  | yearOfCentury
  | month
  | day
  | hour
  | minute
  | second
deriving Repr, DecidableEq

/-- The names of the fields in patterns, in the order in which they are tried. -/
def Field.names : List (List Char × Field) := [
  ("YYYY".toList, year), ("yyyy".toList, year),
  ("YY".toList, yearOfCentury), ("yy".toList, yearOfCentury),
  ("MM".toList, month), ("mm".toList, month),
  ("DD".toList, day), ("dd".toList, day),
  ("HH".toList, hour), ("hh".toList, hour),
  ("MI".toList, minute), ("mi".toList, minute),
  ("SS".toList, second), ("ss".toList, second)]

/-- The letter of a field's directive. -/
def Field.directive : Field → Char
  | year => 'Y'
  | yearOfCentury => 'y'
  | month => 'm'
  | day => 'd'
  | hour => 'H'
  | minute => 'M'
  | second => 'S'

inductive PatternItem
  | field (f : Field)
  | char (c : Char)
deriving Repr, DecidableEq

/-- The field whose name begins a text, and the length of the name. -/
def Field.leading? (cs : List Char) : Option (Field × Nat) :=
  (names.find? fun entry => entry.1.isPrefixOf cs).map fun entry => (entry.2, entry.1.length)

/-- The items of a pattern; `skip` characters belong to a name that was already taken. -/
def patternItemsFrom : Nat → List Char → List PatternItem
  | _, [] => []
  | skip + 1, _ :: rest => patternItemsFrom skip rest
  | 0, c :: rest =>
    match Field.leading? (c :: rest) with
    | some (f, length) => .field f :: patternItemsFrom (length - 1) rest
    | none => .char c :: patternItemsFrom 0 rest

def patternItems (pattern : String) : List PatternItem :=
  patternItemsFrom 0 pattern.toList

def PatternItem.directive : PatternItem → List Char
  | field f => ['%', f.directive]
  | char c => if c = '%' then ['%', '%'] else [c]

/-- A pattern in the notation of percent directives. -/
def directives (pattern : String) : String :=
  String.ofList ((patternItems pattern).flatMap PatternItem.directive)

/-! ## Fields of a text -/

/-- The numbers found so far. -/
structure Fields where
  year : Option Int := none
  yearOfCentury : Option Nat := none
  month : Option Nat := none
  day : Option Nat := none
  hour : Option Nat := none
  minute : Option Nat := none
  second : Option Nat := none
deriving Repr, DecidableEq

/-- Records a number in a place that is empty or holds the same number. -/
def agree {α : Type} [DecidableEq α] (place : Option α) (value : α) : Option (Option α) :=
  match place with
  | none => some (some value)
  | some old => if old = value then some (some value) else none

/-- Records the number of a field if it is in the field's range. -/
def Fields.set? (fs : Fields) (f : Field) (value : Int) : Option Fields :=
  let n := value.toNat
  match f with
  | .year =>
    if -2147483648 ≤ value ∧ value ≤ 2147483647 then
      (agree fs.year value).map fun v => { fs with year := v }
    else none
  | .yearOfCentury => (agree fs.yearOfCentury n).map fun v => { fs with yearOfCentury := v }
  | .month =>
    if 1 ≤ n ∧ n ≤ 12 then (agree fs.month n).map fun v => { fs with month := v } else none
  | .day =>
    if 1 ≤ n ∧ n ≤ 31 then (agree fs.day n).map fun v => { fs with day := v } else none
  | .hour => if n ≤ 23 then (agree fs.hour n).map fun v => { fs with hour := v } else none
  | .minute => if n ≤ 59 then (agree fs.minute n).map fun v => { fs with minute := v } else none
  | .second => if n ≤ 60 then (agree fs.second n).map fun v => { fs with second := v } else none

/-- At least one and at most `width` digits, and what follows them. -/
def readDigits? (width : Nat) (cs : List Char) : Option (Nat × List Char) :=
  let digits := (cs.take width).takeWhile Char.isDigit
  if digits.isEmpty then none
  else some (Number.ofDigits digits, cs.drop digits.length)

/-- The number of a field after white space. A year has up to four digits, or any number of them
after a sign; the other fields have one or two. -/
def Field.read? (f : Field) (cs : List Char) : Option (Int × List Char) :=
  let cs := cs.dropWhile Text.isBlank
  match f, cs with
  | .year, '-' :: rest => (readDigits? rest.length rest).map fun (n, rest) => (-(n : Int), rest)
  | .year, '+' :: rest => (readDigits? rest.length rest).map fun (n, rest) => ((n : Int), rest)
  | .year, _ => (readDigits? 4 cs).map fun (n, rest) => ((n : Int), rest)
  | _, _ => (readDigits? 2 cs).map fun (n, rest) => ((n : Int), rest)

/-- Reads a whole text along the items of a pattern. -/
def readFields? : List PatternItem → Fields → List Char → Option Fields
  | [], fs, cs => if cs.isEmpty then some fs else none
  | .field f :: items, fs, cs => do
    let (value, rest) ← f.read? cs
    readFields? items (← fs.set? f value) rest
  | .char c :: items, fs, cs =>
    -- white space need not be there at all
    if Text.isBlank c then readFields? items fs (cs.dropWhile Text.isBlank)
    else match cs with
      | d :: rest => if c = d then readFields? items fs rest else none
      | [] => none

/-! ## The moment of a text -/

/-- The year that the fields name. Two digits alone are a year from 1970 to 2069; next to a whole
year they have to be its last two, and the year must not be negative. -/
def Fields.fullYear? (fs : Fields) : Option Int :=
  match fs.year, fs.yearOfCentury with
  | some year, none => some year
  | some year, some n => if 0 ≤ year ∧ year % 100 = n then some year else none
  | none, some n => some (n + if n < 70 then 2000 else 1900)
  | none, none => none

def Fields.date? (fs : Fields) : Option Date := do
  Date.ofFields? (← fs.fullYear?) (← fs.month) (← fs.day)

/-- The time of day that the fields name. It takes an hour and a minute; a sixtieth second is the
one before it. Without them it is midnight, whatever the second is. -/
def Fields.time (fs : Fields) : TimeOfDay :=
  match fs.hour, fs.minute with
  | some hour, some minute => ⟨hour, minute, min (fs.second.getD 0) 59⟩
  | _, _ => .midnight

/-- The moment that a text denotes in a zone, written as a pattern says. -/
def parseDateTime (zone : Zone) (text pattern : String) : Except CalendarError Instant :=
  let trimmed := Text.trim text.toList
  let moment := do
    let fs ← readFields? (patternItems pattern) {} trimmed
    Instant.ofLocal? zone ⟨← fs.date?, fs.time⟩
  match moment with
  | some i => .ok i
  | none => .error (.unparsable (String.ofList trimmed) pattern)

end Formulae.Calendar
