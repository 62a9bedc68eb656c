import Formulae.Calendar.Instant
import Formulae.Number.Double
import Formulae.Number.Layout

/-!
# Making and moving moments

Instants are made of calendar fields in a zone, moved to the Monday before or to the ends of their
month, and counted in whole hours: in formulas a moment is the number of the hour it falls in,
which may be negative.

Moving works on local dates. A local date may lie outside the calendar even though the instant is
supported; such an instant cannot be moved, nor can one whose Monday would lie outside.

A `CalendarError` is answered to the caller with a message; leaving the calendar while counting days
has no error of its own, and whatever asked for it fails as a whole.
-/

namespace Formulae.Calendar

/-! ## Failures -/

/-- Why there is no such moment. -/
inductive CalendarError
  /-- Year, month and day are not a supported date. -/
  | invalidDate (year : Int) (month day : Nat)
  /-- Hour, minute and second are not a time of day, or there is no such instant. -/
  | invalidTime (hour minute second : Nat)
  /-- A number of hours is not near any instant. -/
  | outOfRange (hours : Float)
  /-- A text is not written as its pattern says. -/
  | unparsable (text pattern : String)

def CalendarError.message : CalendarError → String
  | invalidDate year month day =>
    "Invalid date: year " ++ toString year ++ ", month " ++ toString month ++ ", day " ++
      toString day
  | invalidTime hour minute second =>
    "Invalid time: " ++ toString hour ++ ":" ++ toString minute ++ ":" ++ toString second
  | outOfRange hours => "Timestamp out of range: " ++ Number.positional hours
  | unparsable text pattern => "Cannot parse '" ++ text ++ "' with pattern '" ++ pattern ++ "'"

/-- Why a moment could not be moved. -/
inductive Failure
  | rejected (error : CalendarError)
  /-- The days counted lead out of the calendar. -/
  | beyondCalendar

/-! ## Hours -/

/-- The number of the hour an instant falls in. -/
def hourNumber (i : Instant) : Float :=
  Float.ofInt (i.seconds / 3600)

/-- The instant a number of hours after 1970, down to the second. -/
def ofHours (hours : Float) : Except CalendarError Instant :=
  match (Number.floorInt? (hours * 3600.0)).bind Instant.ofSeconds? with
  | some i => .ok i
  | none => .error (.outOfRange hours)

/-! ## From fields -/

/-- The first moment of a local date. -/
def startOfDay (zone : Zone) (d : Date) : Except CalendarError Instant :=
  match Instant.ofLocal? zone ⟨d, .midnight⟩ with
  | some i => .ok i
  | none => .error (.invalidDate d.year d.month d.day)

/-- The date of three numbers. -/
def dateOf (year : Int) (month day : Nat) : Except CalendarError Date :=
  match Date.ofFields? year month day with
  | some d => .ok d
  | none => .error (.invalidDate year month day)

def dateAtMidnight (zone : Zone) (year : Int) (month day : Nat) : Except CalendarError Instant := do
  startOfDay zone (← dateOf year month day)

/-- The moment at which a local clock shows six numbers. -/
def dateTime (zone : Zone) (year : Int) (month day hour minute second : Nat) :
    Except CalendarError Instant := do
  let date ← dateOf year month day
  let time : TimeOfDay := ⟨hour, minute, second⟩
  match if time.isValid then Instant.ofLocal? zone ⟨date, time⟩ else none with
  | some i => .ok i
  | none => .error (.invalidTime hour minute second)

/-! ## Moving -/

/-- The local date of an instant, if the calendar has it. -/
def localDate (zone : Zone) (i : Instant) : Except Failure Date :=
  let date := (i.localClock zone).date
  if date.isSupported then .ok date else .error .beyondCalendar

/-- The first moment of a local date that was counted out; it has to lie in the calendar. -/
def startOfCounted (zone : Zone) (d : Date) : Except Failure Instant :=
  if d.isSupported then (startOfDay zone d).mapError .rejected else .error .beyondCalendar

/-- The first moment of the last Monday before the local date of an instant. -/
def previousMonday (zone : Zone) (i : Instant) : Except Failure Instant := do
  let date ← localDate zone i
  let back := if date.weekday = 0 then 7 else date.weekday
  startOfCounted zone (date.daysBefore back)

/-- The first moment of the local month of an instant. -/
def startOfMonth (zone : Zone) (i : Instant) : Except Failure Instant := do
  let date ← localDate zone i
  startOfCounted zone { date with day := 1 }

/-- The first moment of the last day of the local month of an instant, which is found from the
first day of the next month. -/
def endOfMonth (zone : Zone) (i : Instant) : Except Failure Instant := do
  let date ← localDate zone i
  let next := date.nextMonth
  let next ← (dateOf next.year next.month next.day).mapError .rejected
  startOfCounted zone (next.daysBefore 1)

end Formulae.Calendar
