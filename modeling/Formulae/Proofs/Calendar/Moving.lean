import Formulae.Proofs.Calendar.CivilTime
import Formulae.Proofs.Calendar.Hours

/-!
# Moving at the ends of the calendar

A moment is moved on the local date, which the calendar may not have even though it has the moment:
a zone shows the first and the last hours on a day before or behind it. From its first days there is
no Monday to go back to. Nothing else gets in the way: the ends of a month that the calendar has are
days of the calendar, unless the next month is not, and that is an error and no overflow.

Main results:

* `Date.isSupported_iff` — the supported dates are a range of day numbers.
* `startOfMonth_beyond_iff`, `endOfMonth_beyond_iff`, `previousMonday_beyond_iff` — the moments that
  are moved beyond the calendar.
-/

namespace Formulae.Calendar

-- ---------------------------------------------------------------------------
-- Supported dates
-- ---------------------------------------------------------------------------

namespace Date

/-- The number of the first supported day. -/
def firstDay : Int := -96465292

/-- The number of the last supported day. -/
def lastDay : Int := 95026236

theorem dayNumber_first : dayNumber ⟨-262143, 1, 1⟩ = firstDay := by
  decide

variable {d : Date}

/-- The supported dates are a range of day numbers. -/
theorem isSupported_iff (h : d.isValid) :
    d.isSupported = true ↔ firstDay ≤ d.dayNumber ∧ d.dayNumber ≤ lastDay := by
  have hday := dayOfYear_lt h
  have hnext := daysBeforeYear_succ d.year
  have hnumber : d.dayNumber = daysBeforeYear d.year + d.dayOfYear - 719162 := rfl
  have hfirst : daysBeforeYear (-262143) = firstDay + 719162 := by decide
  have hlast : daysBeforeYear 262143 = lastDay + 1 + 719162 := by decide
  simp only [isSupported, Bool.and_eq_true, decide_eq_true_eq]
  constructor
  · rintro ⟨hlow, hhigh⟩
    have hbefore := daysBeforeYear_mono hlow
    have hbehind := daysBeforeYear_mono (show d.year + 1 ≤ 262143 by omega)
    omega
  · rintro ⟨hlow, hhigh⟩
    constructor
    · -- an earlier year would end before the first day
      refine Int.not_lt.mp fun hyear => ?_
      have hbefore := daysBeforeYear_mono (show d.year + 1 ≤ -262143 by omega)
      omega
    · refine Int.not_lt.mp fun hyear => ?_
      have hbehind := daysBeforeYear_mono (show 262143 ≤ d.year by omega)
      omega

/-- The supported dates are those counted from the first day to the last one. -/
theorem isSupported_ofDayNumber {n : Int} :
    (ofDayNumber n).isSupported = true ↔ firstDay ≤ n ∧ n ≤ lastDay := by
  rw [isSupported_iff (isValid_ofDayNumber n), dayNumber_ofDayNumber]

/-- The first day of the next month is a day of the calendar. -/
theorem isValid_nextMonth (h : d.isValid) : d.nextMonth.isValid := by
  obtain ⟨hmonth, -⟩ := isValid_iff.mp h
  unfold nextMonth
  rw [isValid_iff]
  split
  · exact ⟨⟨Nat.le_refl 1, by dsimp only; omega⟩, Nat.le_refl 1, by simp [monthLengths]⟩
  · have hlong := (monthLengths_bounds (isLeap d.year) d.month (by omega)).1
    exact ⟨⟨by dsimp only; omega, by dsimp only; omega⟩, Nat.le_refl 1,
      by dsimp only; rw [Nat.add_sub_cancel]; omega⟩

/-- The day before the next month is supported if the month and the next one are. -/
theorem isSupported_before_nextMonth (h : d.isValid) (hd : d.isSupported)
    (hnext : d.nextMonth.isSupported) : (d.nextMonth.daysBefore 1).isSupported = true := by
  have hvalid := isValid_nextMonth h
  obtain ⟨hlow, hhigh⟩ := (isSupported_iff hvalid).mp hnext
  have hne : d.nextMonth.dayNumber ≠ firstDay := by
    intro heq
    -- the first day of all would be behind a month that is supported
    have hfirst : d.nextMonth = ⟨-262143, 1, 1⟩ :=
      eq_of_dayNumber hvalid (by decide) (by rw [heq, dayNumber_first])
    obtain ⟨⟨hone, -⟩, -⟩ := isValid_iff.mp h
    simp only [isSupported, Bool.and_eq_true, decide_eq_true_eq] at hd
    unfold nextMonth at hfirst
    split at hfirst
    · have hyear : d.year + 1 = -262143 := congrArg Date.year hfirst
      omega
    · have hmonth : d.month + 1 = 1 := congrArg Date.month hfirst
      omega
  exact isSupported_ofDayNumber.mpr ⟨by push_cast; omega, by push_cast; omega⟩

end Date

-- ---------------------------------------------------------------------------
-- Local dates
-- ---------------------------------------------------------------------------

variable {zone : Zone} {i : Instant}

/-- Seconds that a clock in a zone has passed since the beginning of 1970 at an instant. -/
def Instant.localSeconds (zone : Zone) (i : Instant) : Int :=
  i.seconds + zone.offset

/-- Whether a clock in a zone shows an instant at so many seconds after the first one and no later
than the last one. -/
def Instant.IsShown (zone : Zone) (i : Instant) (margin : Int) : Prop :=
  first.seconds + margin ≤ i.localSeconds zone ∧ i.localSeconds zone ≤ last.seconds

/-- The date that is shown at a moment is supported just if the moment is shown in the zone. -/
theorem isSupported_localDate :
    (i.localClock zone).date.isSupported = true ↔ i.IsShown zone 0 := by
  have hdate : (i.localClock zone).date = .ofDayNumber (i.localSeconds zone / 86400) := rfl
  rw [hdate, Date.isSupported_ofDayNumber, Date.firstDay, Date.lastDay, Instant.IsShown,
    Instant.first_seconds, Instant.last_seconds]
  omega

/-- The first moment of a date that was counted out is beyond the calendar if the date is. -/
theorem startOfCounted_beyond_iff {d : Date} :
    startOfCounted zone d = .error .beyondCalendar ↔ d.isSupported = false := by
  unfold startOfCounted
  by_cases hd : d.isSupported = true
  · rw [if_pos hd, hd]
    cases startOfDay zone d with
    | ok i => simp [Except.mapError]
    | error e => simp [Except.mapError]
  · rw [if_neg hd]
    simpa using hd

/-- What is found is gone on with. -/
theorem bind_of_eq_ok {α : Type} {found : Except Failure α} {a : α} (h : found = .ok a)
    (f : α → Except Failure Instant) : found >>= f = f a := by
  rw [h]
  rfl

/-- The first day of the next month is found where the calendar has it. -/
theorem dateOf_nextMonth {d : Date} (h : d.isValid) (hnext : d.nextMonth.isSupported) :
    (dateOf d.nextMonth.year d.nextMonth.month d.nextMonth.day).mapError Failure.rejected =
      .ok d.nextMonth := by
  rw [dateOf_eq (Date.isValid_nextMonth h) hnext]
  rfl

/-- What is done on the local date is beyond the calendar where that is not shown by it. -/
theorem localDate_bind_beyond_iff {f : Date → Except Failure Instant} :
    localDate zone i >>= f = .error .beyondCalendar ↔
      (i.IsShown zone 0 → f (i.localClock zone).date = .error .beyondCalendar) := by
  rw [← isSupported_localDate]
  unfold localDate
  dsimp only
  by_cases h : (i.localClock zone).date.isSupported = true
  · rw [if_pos h, imp_iff_right h]
    rfl
  · rw [if_neg h]
    exact iff_of_true rfl fun hsupported => absurd hsupported h

-- ---------------------------------------------------------------------------
-- Moving
-- ---------------------------------------------------------------------------

/-- From a supported date the first day of the month is no overflow: it is of the same year. -/
theorem startOfCounted_monthStart {d : Date} (h : d.isSupported) :
    startOfCounted zone d.monthStart ≠ .error .beyondCalendar := by
  rw [Ne, startOfCounted_beyond_iff, Bool.not_eq_false]
  exact h

/-- The beginning of a month is beyond the calendar just where the local date is. -/
theorem startOfMonth_beyond_iff :
    startOfMonth zone i = .error .beyondCalendar ↔ ¬i.IsShown zone 0 := by
  unfold startOfMonth
  rw [localDate_bind_beyond_iff]
  refine imp_congr_right fun hshown => iff_of_false ?_ not_false
  exact startOfCounted_monthStart (isSupported_localDate.mpr hshown)

/-- From a supported date the last day of the month is no overflow. -/
theorem startOfCounted_before_nextMonth {d : Date} (h : d.isValid) (hd : d.isSupported) :
    ((dateOf d.nextMonth.year d.nextMonth.month d.nextMonth.day).mapError Failure.rejected >>=
      fun next => startOfCounted zone (next.daysBefore 1)) ≠ .error .beyondCalendar := by
  by_cases hnext : d.nextMonth.isSupported = true
  · rw [Ne, bind_of_eq_ok (dateOf_nextMonth h hnext), startOfCounted_beyond_iff,
      Bool.not_eq_false]
    exact Date.isSupported_before_nextMonth h hd hnext
  · -- there is no next month, which is an error
    rw [dateOf_eq_error fun hdate => hnext hdate.2]
    simp [Except.mapError, bind, Except.bind]

/-- The end of a month is beyond the calendar just where the local date is. -/
theorem endOfMonth_beyond_iff :
    endOfMonth zone i = .error .beyondCalendar ↔ ¬i.IsShown zone 0 := by
  unfold endOfMonth
  rw [localDate_bind_beyond_iff]
  refine imp_congr_right fun hshown => iff_of_false ?_ not_false
  exact startOfCounted_before_nextMonth (Instant.isValid_localClock zone i).1
    (isSupported_localDate.mpr hshown)

/-- The Monday before is beyond the calendar where the local date is, and on the first five days,
the last of which is the first Monday. -/
theorem previousMonday_beyond_iff :
    previousMonday zone i = .error .beyondCalendar ↔ ¬i.IsShown zone (5 * 86400) := by
  let n := i.localSeconds zone / 86400
  have hn : n = i.localSeconds zone / 86400 := rfl
  have hdate : (i.localClock zone).date = .ofDayNumber n := rfl
  have hweekday : (Date.ofDayNumber n).weekday = ((n + 3) % 7).toNat := by
    rw [Date.weekday, Date.dayNumber_ofDayNumber]
  unfold previousMonday
  rw [localDate_bind_beyond_iff, startOfCounted_beyond_iff, ← Bool.not_eq_true, hdate,
    Date.daysBefore, Date.isSupported_ofDayNumber, Date.dayNumber_ofDayNumber, hweekday]
  unfold Instant.IsShown
  rw [Instant.first_seconds, Instant.last_seconds, Date.firstDay, Date.lastDay]
  split <;> omega

end Formulae.Calendar
