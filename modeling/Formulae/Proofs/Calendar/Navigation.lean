import Formulae.Proofs.Calendar.Moving

/-!
# Moving inside the calendar

Away from the first and the last year of the calendar a moment is moved to the beginning of a local
day, whatever the zone: to the last Monday before its own day, or to the first or the last day of
its month. A move depends on the local date only, and its result is shown as a date of the same
month, so that moves can be made one after the other.

Main results:

* `previousMonday_eq`, `startOfMonth_eq`, `endOfMonth_eq` — the moments that are moved to.
* `startOfMonth_congr`, `endOfMonth_congr` — they are the same from all moments of a local month.
* `moves_inside_calendar` — where they lie, and what a second move does.
-/

namespace Formulae.Calendar

variable {zone : Zone} {i : Instant} {d : Date}

-- ---------------------------------------------------------------------------
-- Beginnings of days
-- ---------------------------------------------------------------------------

/-- The moment at which a day begins in a zone, supported or not. -/
def Instant.midnight (zone : Zone) (d : Date) : Instant :=
  .showing zone ⟨d, .midnight⟩

theorem Instant.seconds_midnight (zone : Zone) (d : Date) :
    (midnight zone d).seconds = 86400 * d.dayNumber - zone.offset := by
  show 86400 * d.dayNumber + ((0 : Nat) : Int) - zone.offset = _
  rw [Int.natCast_zero, Int.add_zero]

/-- At midnight of a date the clock shows that date and no time. -/
theorem Instant.localClock_midnight (h : d.isValid) :
    (midnight zone d).localClock zone = ⟨d, .midnight⟩ :=
  localClock_showing (w := ⟨d, .midnight⟩) h rfl

theorem Instant.date_midnight (h : d.isValid) : ((midnight zone d).localClock zone).date = d :=
  congrArg WallClock.date (localClock_midnight h)

/-- In no zone does a supported day begin before the first moment, but for the first day. -/
theorem Instant.isSupported_midnight (hfirst : Date.firstDay < d.dayNumber)
    (hlast : d.dayNumber ≤ Date.lastDay) : (midnight zone d).IsSupported := by
  have hlower := zone.lower
  have hupper := zone.upper
  unfold IsSupported
  rw [first_seconds, last_seconds, seconds_midnight]
  unfold Date.firstDay at hfirst
  unfold Date.lastDay at hlast
  omega

/-- A date between the first day and the last one begins at midnight. -/
theorem startOfCounted_eq (h : d.isValid) (hfirst : Date.firstDay < d.dayNumber)
    (hlast : d.dayNumber ≤ Date.lastDay) : startOfCounted zone d = .ok (.midnight zone d) := by
  have hsupported : d.isSupported = true := (Date.isSupported_iff h).mpr ⟨by omega, hlast⟩
  have hmoment : Instant.ofLocal? zone ⟨d, .midnight⟩ = some (.midnight zone d) :=
    Instant.ofLocal?_eq_some_iff_showing.mpr ⟨rfl, Instant.isSupported_midnight hfirst hlast⟩
  have hstart : startOfDay zone d = .ok (.midnight zone d) := by
    delta startOfDay
    rw [hmoment]
  rw [startOfCounted, if_pos hsupported, hstart]
  rfl

-- ---------------------------------------------------------------------------
-- Inner years
-- ---------------------------------------------------------------------------

namespace Date

/-- Neither in the first nor in the last supported year. -/
def IsInner (d : Date) : Prop :=
  -262143 < d.year ∧ d.year < 262142

instance (d : Date) : Decidable d.IsInner :=
  inferInstanceAs (Decidable (_ ∧ _))

/-- The first and the last year have 365 days. -/
theorem IsInner.dayNumber (h : d.IsInner) (hvalid : d.isValid) :
    firstDay + 365 ≤ d.dayNumber ∧ d.dayNumber + 365 ≤ lastDay := by
  have hday := dayOfYear_lt hvalid
  have hyear := daysBeforeYear_succ d.year
  have hnumber : d.dayNumber = daysBeforeYear d.year + d.dayOfYear - 719162 := rfl
  have hfirst := daysBeforeYear_mono (show -262142 ≤ d.year by have := h.1; omega)
  have hlast := daysBeforeYear_mono (show d.year + 1 ≤ 262142 by have := h.2; omega)
  have hends : daysBeforeYear (-262142) = firstDay + 719162 + 365 ∧
      daysBeforeYear 262142 = lastDay + 1 + 719162 - 365 := by
    decide
  omega

/-- The dates of an inner year are supported. -/
theorem IsInner.isSupported (h : d.IsInner) : d.isSupported = true := by
  simp only [Date.isSupported, Bool.and_eq_true, decide_eq_true_eq]
  unfold IsInner at h
  omega

/-- Every time of a day of an inner year is supported, in every zone. -/
theorem IsInner.isSupported_showing {w : WallClock} (h : w.date.IsInner)
    (hvalid : w.date.isValid) (htime : w.time.isValid) :
    (Instant.showing zone w).IsSupported := by
  obtain ⟨hlow, hhigh⟩ := h.dayNumber hvalid
  have hday := TimeOfDay.toSeconds_lt htime
  have hlower := zone.lower
  have hupper := zone.upper
  have hseconds : (Instant.showing zone w).seconds =
      86400 * w.date.dayNumber + w.time.toSeconds - zone.offset := rfl
  unfold Instant.IsSupported
  rw [Instant.first_seconds, Instant.last_seconds, hseconds]
  unfold firstDay at hlow
  unfold lastDay at hhigh
  omega

/-- So is the first day of the month after. -/
theorem isSupported_nextMonth (h : d.IsInner) : d.nextMonth.isSupported = true := by
  have hyear : d.nextMonth.year = d.year ∨ d.nextMonth.year = d.year + 1 := by
    unfold nextMonth
    split
    · exact .inr rfl
    · exact .inl rfl
  simp only [Date.isSupported, Bool.and_eq_true, decide_eq_true_eq]
  unfold IsInner at h
  omega

end Date

/-- What is done on the local date, where the calendar has it. -/
theorem localDate_bind {f : Date → Except Failure Instant} (hdate : (i.localClock zone).date = d)
    (h : d.isSupported) : localDate zone i >>= f = f d := by
  refine bind_of_eq_ok ?_ f
  unfold localDate
  dsimp only
  rw [hdate, if_pos h]

-- ---------------------------------------------------------------------------
-- Mondays
-- ---------------------------------------------------------------------------

namespace Date

/-- The last Monday before a date. -/
def mondayBefore (d : Date) : Date :=
  d.daysBefore (if d.weekday = 0 then 7 else d.weekday)

theorem isValid_mondayBefore (d : Date) : d.mondayBefore.isValid :=
  isValid_ofDayNumber _

/-- The Monday before is as many days back as the weekday says, and a week back on a Monday. -/
theorem dayNumber_mondayBefore (d : Date) :
    d.mondayBefore.dayNumber = d.dayNumber - (if d.weekday = 0 then 7 else d.weekday : Nat) :=
  dayNumber_ofDayNumber _

theorem weekday_lt (d : Date) : d.weekday < 7 := by
  unfold weekday
  omega

/-- The Monday before is one of the seven days before. -/
theorem mondayBefore_bounds (d : Date) :
    d.mondayBefore.dayNumber + 1 ≤ d.dayNumber ∧
      d.dayNumber ≤ d.mondayBefore.dayNumber + 7 := by
  have hweekday := d.weekday_lt
  rw [dayNumber_mondayBefore]
  split <;> omega

/-- The last Monday before a date is one. -/
theorem weekday_mondayBefore (d : Date) : d.mondayBefore.weekday = 0 := by
  have hnumber := d.dayNumber_mondayBefore
  unfold weekday at hnumber ⊢
  split at hnumber <;> omega

/-- From a Monday it is a week back to the one before. -/
theorem dayNumber_mondayBefore_of_monday (h : d.weekday = 0) :
    d.mondayBefore.dayNumber = d.dayNumber - 7 := by
  rw [dayNumber_mondayBefore, if_pos h]
  rfl

-- a Friday, and a Monday
example : mondayBefore ⟨2024, 3, 15⟩ = ⟨2024, 3, 11⟩ := by decide
example : mondayBefore ⟨2024, 3, 11⟩ = ⟨2024, 3, 4⟩ := by decide

end Date

-- ---------------------------------------------------------------------------
-- Moves
-- ---------------------------------------------------------------------------

/-- From behind the first week there is a Monday to go back to. -/
theorem previousMonday_eq (hdate : (i.localClock zone).date = d)
    (hfirst : Date.firstDay + 7 < d.dayNumber) (hlast : d.dayNumber ≤ Date.lastDay) :
    previousMonday zone i = .ok (.midnight zone d.mondayBefore) := by
  have hvalid : d.isValid := hdate ▸ (Instant.isValid_localClock zone i).1
  have hsupported : d.isSupported = true := (Date.isSupported_iff hvalid).mpr ⟨by omega, hlast⟩
  have hbounds := d.mondayBefore_bounds
  unfold previousMonday
  rw [localDate_bind hdate hsupported]
  show startOfCounted zone d.mondayBefore = _
  exact startOfCounted_eq d.isValid_mondayBefore (by omega) (by omega)

variable (hdate : (i.localClock zone).date = d) (hinner : d.IsInner)

include hdate hinner

/-- In an inner year the month begins at midnight of its first day. -/
theorem startOfMonth_eq : startOfMonth zone i = .ok (.midnight zone d.monthStart) := by
  have hvalid : d.isValid := hdate ▸ (Instant.isValid_localClock zone i).1
  have hstart := Date.isValid_monthStart hvalid
  have hbounds := Date.IsInner.dayNumber (d := d.monthStart) hinner hstart
  unfold startOfMonth
  rw [localDate_bind hdate hinner.isSupported]
  show startOfCounted zone d.monthStart = _
  exact startOfCounted_eq hstart (by omega) (by omega)

/-- In an inner year the month ends at midnight of its last day. -/
theorem endOfMonth_eq : endOfMonth zone i = .ok (.midnight zone d.monthEnd) := by
  have hvalid : d.isValid := hdate ▸ (Instant.isValid_localClock zone i).1
  have hend := Date.isValid_monthEnd hvalid
  have hbounds := Date.IsInner.dayNumber (d := d.monthEnd) hinner hend
  have hbefore : d.nextMonth.daysBefore 1 = d.monthEnd := by
    rw [Date.daysBefore, Date.dayNumber_nextMonth hvalid, Int.natCast_one, Int.add_sub_cancel,
      Date.ofDayNumber_dayNumber hend]
  have hnext := dateOf_nextMonth hvalid (Date.isSupported_nextMonth hinner)
  unfold endOfMonth
  rw [localDate_bind hdate hinner.isSupported]
  dsimp only
  rw [bind_of_eq_ok hnext, hbefore]
  exact startOfCounted_eq hend (by omega) (by omega)

section

variable {i' : Instant} {d' : Date} (hdate' : (i'.localClock zone).date = d')
  (hyear : d'.year = d.year) (hmonth : d'.month = d.month)

include hdate' hyear hmonth

/-- All moments of a local month have the same beginning of it. -/
theorem startOfMonth_congr : startOfMonth zone i' = startOfMonth zone i := by
  have hinner' : d'.IsInner := by rwa [Date.IsInner, hyear]
  rw [startOfMonth_eq hdate' hinner', startOfMonth_eq hdate hinner, Date.monthStart,
    Date.monthStart, hyear, hmonth]

/-- All moments of a local month have the same end of it. -/
theorem endOfMonth_congr : endOfMonth zone i' = endOfMonth zone i := by
  have hinner' : d'.IsInner := by rwa [Date.IsInner, hyear]
  rw [endOfMonth_eq hdate' hinner', endOfMonth_eq hdate hinner, Date.monthEnd, Date.monthEnd,
    hyear, hmonth]

end

/-- The Monday before the Monday before a moment is a week earlier. -/
theorem previousMonday_previousMonday :
    (previousMonday zone i >>= previousMonday zone) =
      .ok (.midnight zone d.mondayBefore.mondayBefore) := by
  have hvalid : d.isValid := hdate ▸ (Instant.isValid_localClock zone i).1
  obtain ⟨hlow, hhigh⟩ := hinner.dayNumber hvalid
  have hbounds := d.mondayBefore_bounds
  rw [bind_of_eq_ok (previousMonday_eq hdate (by omega) (by omega))]
  exact previousMonday_eq (Instant.date_midnight d.isValid_mondayBefore) (by omega) (by omega)

omit hdate hinner

-- ---------------------------------------------------------------------------
-- One after the other
-- ---------------------------------------------------------------------------

/-- A move leads to the beginning of a local day. -/
def LandsOn (zone : Zone) (moved : Except Failure Instant) (d : Date) : Prop :=
  ∃ i, moved = .ok i ∧ i.localClock zone = ⟨d, .midnight⟩

/-- A moment that is moved to midnight of a date lands on that date. -/
theorem landsOn_midnight {moved : Except Failure Instant} (hd : d.isValid)
    (h : moved = .ok (.midnight zone d)) : LandsOn zone moved d :=
  ⟨_, h, Instant.localClock_midnight hd⟩

/-- From a moment of an inner year the Monday before is between one day and a week before the local
day, and the Monday before that a week earlier; the first and the last day of the local month are
reached, the day after the latter is the first of a month, and both stay where they are and lead to
each other. All these moments are midnights. -/
theorem moves_inside_calendar (hdate : (i.localClock zone).date = d) (hinner : d.IsInner) :
    (∃ monday earlier, LandsOn zone (previousMonday zone i) monday ∧ monday.weekday = 0 ∧
      monday.dayNumber + 1 ≤ d.dayNumber ∧ d.dayNumber ≤ monday.dayNumber + 7 ∧
      LandsOn zone (previousMonday zone i >>= previousMonday zone) earlier ∧
      earlier.dayNumber = monday.dayNumber - 7) ∧
    LandsOn zone (startOfMonth zone i) ⟨d.year, d.month, 1⟩ ∧
    LandsOn zone (endOfMonth zone i) ⟨d.year, d.month, daysInMonth d.year d.month⟩ ∧
    (Date.ofDayNumber
      (Date.dayNumber ⟨d.year, d.month, daysInMonth d.year d.month⟩ + 1)).day = 1 ∧
    (startOfMonth zone i >>= startOfMonth zone) = startOfMonth zone i ∧
    (endOfMonth zone i >>= endOfMonth zone) = endOfMonth zone i ∧
    (startOfMonth zone i >>= endOfMonth zone) = endOfMonth zone i ∧
    (endOfMonth zone i >>= startOfMonth zone) = startOfMonth zone i := by
  have hvalid : d.isValid := hdate ▸ (Instant.isValid_localClock zone i).1
  refine ⟨?_, ?_⟩
  · obtain ⟨hlow, hhigh⟩ := hinner.dayNumber hvalid
    have hbounds := d.mondayBefore_bounds
    have hmonday := d.weekday_mondayBefore
    have hfirst := previousMonday_eq hdate (by omega) (by omega)
    exact ⟨d.mondayBefore, d.mondayBefore.mondayBefore,
      landsOn_midnight d.isValid_mondayBefore hfirst, hmonday, hbounds.1, hbounds.2,
      landsOn_midnight (Date.isValid_mondayBefore _) (previousMonday_previousMonday hdate hinner),
      Date.dayNumber_mondayBefore_of_monday hmonday⟩
  · have hstart := Date.isValid_monthStart hvalid
    have hend := Date.isValid_monthEnd hvalid
    have hfirst := startOfMonth_eq hdate hinner
    have hlast := endOfMonth_eq hdate hinner
    -- a second move begins at a date of the same month
    have hfromStart := @Instant.date_midnight zone _ hstart
    have hfromEnd := @Instant.date_midnight zone _ hend
    refine ⟨landsOn_midnight hstart hfirst, landsOn_midnight hend hlast, ?_, ?_, ?_, ?_, ?_⟩
    · show (Date.ofDayNumber (d.monthEnd.dayNumber + 1)).day = 1
      rw [← Date.dayNumber_nextMonth hvalid,
        Date.ofDayNumber_dayNumber (Date.isValid_nextMonth hvalid)]
      unfold Date.nextMonth
      split <;> rfl
    · rw [bind_of_eq_ok hfirst]
      exact startOfMonth_congr hdate hinner hfromStart rfl rfl
    · rw [bind_of_eq_ok hlast]
      exact endOfMonth_congr hdate hinner hfromEnd rfl rfl
    · rw [bind_of_eq_ok hfirst]
      exact endOfMonth_congr hdate hinner hfromStart rfl rfl
    · rw [bind_of_eq_ok hlast]
      exact startOfMonth_congr hdate hinner hfromEnd rfl rfl

/-- Half an hour after February is over in UTC, a zone an hour behind shows its last day. -/
theorem moves_inside_calendar_leapDay :
    let west := Zone.ofSeconds (-3600)
    let i : Instant := ⟨1709253000⟩
    (i.localClock west).date = ⟨2024, 2, 29⟩ ∧ LandsOn west (startOfMonth west i) ⟨2024, 2, 1⟩ ∧
      LandsOn west (endOfMonth west i) ⟨2024, 2, 29⟩ := by
  intro west i
  have hdate : (i.localClock west).date = ⟨2024, 2, 29⟩ := by decide
  obtain ⟨-, hstart, hend, -⟩ := moves_inside_calendar hdate (by decide)
  exact ⟨hdate, hstart, hend⟩

end Formulae.Calendar
