import Formulae.Calendar.Pattern
import Formulae.Evaluation.Call

/-!
# Date functions

In formulas a moment is a number of hours since 1970. Fractions of an hour are respected when a
moment is read, down to the second; functions that answer with a moment give the number of the whole
hour it falls in. Calendar fields are those of the engine's zone.
-/

namespace Formulae.Evaluation

open Calendar

/-! ## Arguments -/

/-- The moment of an argument. -/
def instant (c : Call) (index : Nat) : Program Instant := do
  let hours ← c.number index
  c.orFail (ofHours hours).toOption

/-- The whole number of an argument, if it lies within bounds. -/
def component (c : Call) (low high : Int) (index : Nat) : Program Int := do
  let n := Number.floorInt? (← c.number index)
  c.orFail (n.filter fun n => low ≤ n && n ≤ high)

/-- A calendar field other than the year. -/
def field (c : Call) (index : Nat) : Program Nat :=
  Int.toNat <$> component c 0 4294967295 index

def yearField (c : Call) (index : Nat) : Program Int :=
  component c (-2147483648) 2147483647 index

/-! ## Reading fields -/

/-- What a clock in the engine's zone shows at the moment of the argument. -/
def clockOf (c : Call) : Program WallClock := do
  return (← instant c 0).localClock c.zone

/-- A field of the moment of the argument. -/
def fieldOf (get : WallClock → Int) (c : Call) : Program Float := do
  return Float.ofInt (get (← clockOf c))

/-! ## Moving -/

/-- The hour of a moment, if it could be found. -/
def hourOf (c : Call) : Except Failure Instant → Program Float
  | .ok i => pure (hourNumber i)
  | .error (.rejected _) => Program.error (c.error .functionError)
  | .error .beyondCalendar => Program.overflow

/-- The hour of the moment of the argument when moved. -/
def moved (move : Zone → Instant → Except Failure Instant) (c : Call) : Program Float := do
  hourOf c (move c.zone (← instant c 0))

/-! ## Making moments -/

/-- The hour of the first moment of a day, month and year. -/
def toDate (c : Call) : Program Float := do
  let day ← field c 0
  let month ← field c 1
  let year ← yearField c 2
  hourOf c ((dateAtMidnight c.zone year month day).mapError .rejected)

/-- The hour of the moment of a day, month, year, hour, minute and second. -/
def toDateTime (c : Call) : Program Float := do
  let day ← field c 0
  let month ← field c 1
  let year ← yearField c 2
  let hour ← field c 3
  let minute ← field c 4
  let second ← field c 5
  hourOf c ((dateTime c.zone year month day hour minute second).mapError .rejected)

/-- The hour of the moment that a text denotes, written as a pattern says. -/
def textToDateTime (c : Call) : Program Float := do
  let text ← c.text 0
  let pattern ← c.text 1
  match parseDateTime c.zone text pattern with
  | .ok i => pure (hourNumber i)
  | .error _ => Program.error (c.errorNaming .parseError text)

/-! ## The present -/

/-- The number of the present hour. -/
def presentHour (x : Context) : Float :=
  hourNumber x.clock

/-- The hour of the first moment of the present day. -/
def todayHour (x : Context) : Except CalendarError Float :=
  hourNumber <$> startOfDay x.settings.zone (x.clock.localClock x.settings.zone).date

/-- The hours from a moment to the present one. -/
def distanceFromNow (c : Call) : Program Float := do
  return presentHour c.context - (← c.number 0)

/-- The whole hours from a moment to the first one of the present day. -/
def distanceFromToday (c : Call) : Program Float := do
  let hours ← c.number 0
  let today ← c.orFail (todayHour c.context).toOption
  return Number.floor (today - hours)

end Formulae.Evaluation
