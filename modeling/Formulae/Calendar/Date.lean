/-!
# Calendar dates

The proleptic Gregorian calendar: leap years every four years but not in three of four centuries,
for all years before and after, the year `0` included. A day is counted from 1 January 1970, day
`0`. Dates are supported from the first day of the year `-262143` to the last day of the year
`262142`; the days next to these two can be named but not reached.

Main statements: `monthDay_offset` and `offset_monthDay`, a day of the year and its month and day
determine each other.
-/

namespace Formulae.Calendar

/-! ## Years and months -/

def isLeap (year : Int) : Bool :=
  year % 4 == 0 && (year % 100 != 0 || year % 400 == 0)

def monthLengths (leap : Bool) : List Nat :=
  [31, if leap then 29 else 28, 31, 30, 31, 30, 31, 31, 30, 31, 30, 31]

/-- The length of a month, counted from `1`; there is no day in a month that there is not. -/
def daysInMonth (year : Int) (month : Nat) : Nat :=
  if month = 0 then 0 else (monthLengths (isLeap year)).getD (month - 1) 0

/-- The days from 1 January of the year `1` to 1 January of a year. -/
def daysBeforeYear (year : Int) : Int :=
  let past := year - 1
  365 * past + past / 4 - past / 100 + past / 400

/-- The days of the first months of a list. -/
def daysInFirst : Nat → List Nat → Nat
  | 0, _ => 0
  | _ + 1, [] => 0
  | months + 1, length :: lengths => length + daysInFirst months lengths

/-- The month and the day in it of a day of the year, from a list of month lengths on; both are
counted on from `1`. -/
def monthDayFrom (month : Nat) : List Nat → Nat → Nat × Nat
  | [], offset => (month, offset + 1)
  | length :: lengths, offset =>
    if offset < length then (month, offset + 1)
    else monthDayFrom (month + 1) lengths (offset - length)

/-! ## Dates -/

/-- A day of the calendar. -/
structure Date where
  year : Int
  month : Nat
  day : Nat
deriving Repr, DecidableEq

namespace Date

/-- Whether the calendar has this day. -/
def isValid (d : Date) : Bool :=
  1 ≤ d.month && d.month ≤ 12 && 1 ≤ d.day && d.day ≤ daysInMonth d.year d.month

/-- The day of the year, counted from `0`. -/
def dayOfYear (d : Date) : Nat :=
  daysInFirst (d.month - 1) (monthLengths (isLeap d.year)) + (d.day - 1)

/-- Days since 1 January 1970. -/
def dayNumber (d : Date) : Int :=
  daysBeforeYear d.year + d.dayOfYear - 719162

/-- The year in which a day falls, and the days of that year before it. The day is counted from
1 January of the year `1`. Whole cycles of 400, 100 and 4 years are taken off in turn; the last day
of a cycle that ends in a leap year belongs to the cycle. -/
def yearOfDay (day : Int) : Int × Nat :=
  let cycle := (day % 146097).toNat
  -- the fourth century of a cycle is a day longer, and so is the fourth year
  let century := min (cycle / 36524) 3
  let rest := cycle - century * 36524
  let leapCycle := rest / 1461
  let rest := rest % 1461
  let last := min (rest / 365) 3
  (400 * (day / 146097) + 100 * century + 4 * leapCycle + last + 1, rest - last * 365)

/-- The date of a day since 1 January 1970. -/
def ofDayNumber (n : Int) : Date :=
  let (year, offset) := yearOfDay (n + 719162)
  let (month, day) := monthDayFrom 1 (monthLengths (isLeap year)) offset
  ⟨year, month, day⟩

/-- Whether the year of a date is supported. -/
def isSupported (d : Date) : Bool :=
  -262143 ≤ d.year && d.year ≤ 262142

/-- The date of a year, a month and a day, if the calendar has it and supports its year. -/
def ofFields? (year : Int) (month day : Nat) : Option Date :=
  let d : Date := ⟨year, month, day⟩
  if d.isValid && d.isSupported then some d else none

/-- Days since Monday. -/
def weekday (d : Date) : Nat :=
  ((d.dayNumber + 3) % 7).toNat

/-- The first day of the next month. -/
def nextMonth (d : Date) : Date :=
  if d.month = 12 then ⟨d.year + 1, 1, 1⟩ else ⟨d.year, d.month + 1, 1⟩

/-- The date a number of days before. -/
def daysBefore (d : Date) (n : Nat) : Date :=
  ofDayNumber (d.dayNumber - n)

end Date

/-! ## Days of the year -/

/-- The month and day found for a day of the year measure that day. -/
theorem offset_monthDay (month : Nat) (lengths : List Nat) (offset : Nat)
    (h : offset < daysInFirst lengths.length lengths) :
    daysInFirst ((monthDayFrom month lengths offset).1 - month) lengths +
        ((monthDayFrom month lengths offset).2 - 1) = offset ∧
      month ≤ (monthDayFrom month lengths offset).1 := by
  induction lengths generalizing month offset with
  | nil => simp [daysInFirst] at h
  | cons length lengths ih =>
    rw [List.length_cons, daysInFirst] at h
    rw [monthDayFrom]
    split
    · simp [daysInFirst]
    · rename_i hle
      -- the day lies behind this month
      obtain ⟨hsum, hmonth⟩ := ih (month + 1) (offset - length) (by omega)
      refine ⟨?_, by omega⟩
      obtain ⟨k, hk⟩ : ∃ k, (monthDayFrom (month + 1) lengths (offset - length)).1 =
          month + 1 + k := ⟨_, (Nat.add_sub_cancel' hmonth).symm⟩
      rw [hk] at hsum ⊢
      rw [show month + 1 + k - month = k + 1 by omega, daysInFirst]
      rw [show month + 1 + k - (month + 1) = k by omega] at hsum
      omega

/-- A month and a day in it are found for the day of the year that they measure. -/
theorem monthDay_offset (month : Nat) (lengths : List Nat) (k day : Nat)
    (hk : k < lengths.length) (hday : day < lengths.getD k 0) :
    monthDayFrom month lengths (daysInFirst k lengths + day) = (month + k, day + 1) := by
  induction lengths generalizing month k with
  | nil => simp at hk
  | cons length lengths ih =>
    cases k with
    | zero => simp only [List.getD_cons_zero] at hday; simp [monthDayFrom, daysInFirst, hday]
    | succ k =>
      -- the first month is passed over
      simp only [List.length_cons, List.getD_cons_succ] at hk hday
      rw [daysInFirst, monthDayFrom, if_neg (by omega),
        show length + daysInFirst k lengths + day - length = daysInFirst k lengths + day by omega,
        ih (month + 1) k (by omega) hday]
      simp only [Prod.mk.injEq, and_true]
      omega

end Formulae.Calendar
