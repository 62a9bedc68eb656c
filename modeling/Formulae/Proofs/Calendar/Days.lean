import Formulae.Calendar.Instant

/-!
# Counting days

Dates are counted as days, and days are read as dates, by two procedures that have little in common:
the one adds up years, the other takes off cycles of 400, 100 and 4 years in turn. Each day lies in
one year, so both of them have to agree about it. With the months, whose lengths are a list, this
makes dates and day numbers two names of the same thing, and wall clocks and seconds as well.

Main results:

* `Date.ofDayNumber_dayNumber`, `Date.dayNumber_ofDayNumber` — dates and day numbers.
* `WallClock.ofSeconds_toSeconds`, `WallClock.toSeconds_ofSeconds` — wall clocks and seconds.
-/

namespace Formulae.Calendar

-- ---------------------------------------------------------------------------
-- Years
-- ---------------------------------------------------------------------------

/-- The days of a year. -/
def yearLength (year : Int) : Nat :=
  if isLeap year then 366 else 365

/-- Every fourth year is a leap year, except for centuries that 400 does not divide. -/
theorem isLeap_iff {year : Int} :
    isLeap year = true ↔ year % 4 = 0 ∧ (year % 100 ≠ 0 ∨ year % 400 = 0) := by
  simp [isLeap]

/-- The next year begins a year's length later. -/
theorem daysBeforeYear_succ (year : Int) :
    daysBeforeYear (year + 1) = daysBeforeYear year + yearLength year := by
  unfold daysBeforeYear yearLength
  simp only [isLeap_iff]
  split <;> omega

/-- Later years begin later. -/
theorem daysBeforeYear_mono {year later : Int} (h : year ≤ later) :
    daysBeforeYear year ≤ daysBeforeYear later := by
  unfold daysBeforeYear
  dsimp only
  omega

/-- A day lies in one year only. -/
theorem year_unique {year year' : Int} {offset offset' : Nat} (ho : offset < yearLength year)
    (ho' : offset' < yearLength year')
    (h : daysBeforeYear year + offset = daysBeforeYear year' + offset') :
    year = year' ∧ offset = offset' := by
  have hsucc := daysBeforeYear_succ year
  have hsucc' := daysBeforeYear_succ year'
  -- a later year would begin behind the day
  have hle : ¬ year + 1 ≤ year' := by
    intro hlt
    have := daysBeforeYear_mono hlt
    omega
  have hge : ¬ year' + 1 ≤ year := by
    intro hlt
    have := daysBeforeYear_mono hlt
    omega
  obtain rfl : year = year' := by omega
  exact ⟨rfl, by omega⟩

/-- The year of a day begins as many days before it as the day of the year says. -/
theorem yearOfDay_spec (day : Int) :
    daysBeforeYear (Date.yearOfDay day).1 + (Date.yearOfDay day).2 = day ∧
      (Date.yearOfDay day).2 < yearLength (Date.yearOfDay day).1 := by
  unfold Date.yearOfDay
  dsimp only
  generalize hcycle : (day % 146097).toNat = cycle
  generalize hcentury : min (cycle / 36524) 3 = century
  generalize hrest : cycle - century * 36524 = rest
  generalize hleap : rest / 1461 = leapCycle
  generalize hrest' : rest % 1461 = rest'
  generalize hlast : min (rest' / 365) 3 = last
  generalize hoffset : rest' - last * 365 = offset
  -- what is left of each cycle, and that the day is made of them
  have hcenturies : century ≤ 3 ∧ rest ≤ 36524 ∧ (century < 3 → rest < 36524) := by omega
  have hleaps : leapCycle ≤ 24 ∧ rest' ≤ 1460 ∧ rest = leapCycle * 1461 + rest' := by omega
  have hyears : last ≤ 3 ∧ offset ≤ 365 ∧ (last < 3 → offset < 365) ∧
      rest' = last * 365 + offset := by omega
  have hday : day = 146097 * (day / 146097) + century * 36524 + rest := by omega
  clear hcycle hcentury hrest hleap hrest' hlast hoffset
  generalize day / 146097 = cycles at hday ⊢
  generalize hyear : 400 * cycles + 100 * (century : Int) + 4 * leapCycle + last + 1 = year
  have h4 : (year - 1) / 4 = 100 * cycles + 25 * century + leapCycle := by omega
  have h100 : (year - 1) / 100 = 4 * cycles + century := by omega
  have h400 : (year - 1) / 400 = cycles := by omega
  constructor
  · unfold daysBeforeYear
    dsimp only
    rw [h4, h100, h400]
    omega
  · unfold yearLength
    split
    · omega
    · -- the day that only a leap year has is the last one of its cycles
      rename_i hcommon
      rw [isLeap_iff] at hcommon
      omega

/-- The year of a day and the day of the year are found. -/
theorem yearOfDay_eq {year : Int} {offset : Nat} (h : offset < yearLength year) :
    Date.yearOfDay (daysBeforeYear year + offset) = (year, offset) := by
  obtain ⟨hday, hlt⟩ := yearOfDay_spec (daysBeforeYear year + offset)
  obtain ⟨hyear, hoffset⟩ := year_unique hlt h hday
  exact Prod.ext hyear hoffset

-- ---------------------------------------------------------------------------
-- Dates
-- ---------------------------------------------------------------------------

theorem length_monthLengths (leap : Bool) : (monthLengths leap).length = 12 := rfl

/-- The lengths of the months add up to the length of the year. -/
theorem daysInFirst_year (year : Int) :
    daysInFirst 12 (monthLengths (isLeap year)) = yearLength year := by
  unfold yearLength
  cases isLeap year <;> rfl

/-- The months up to one make up no more than the year. -/
theorem daysInFirst_add_le (leap : Bool) : ∀ k < 12,
    daysInFirst k (monthLengths leap) + (monthLengths leap).getD k 0 ≤
      daysInFirst 12 (monthLengths leap) := by
  cases leap <;> decide

/-- A day of the year lies in one of the months. -/
theorem monthDayFrom_bounds (month : Nat) (lengths : List Nat) (offset : Nat)
    (h : offset < daysInFirst lengths.length lengths) :
    ∃ k < lengths.length, (monthDayFrom month lengths offset).1 = month + k ∧
      1 ≤ (monthDayFrom month lengths offset).2 ∧
      (monthDayFrom month lengths offset).2 ≤ lengths.getD k 0 := by
  induction lengths generalizing month offset with
  | nil => simp [daysInFirst] at h
  | cons length lengths ih =>
    rw [List.length_cons, daysInFirst] at h
    rw [monthDayFrom]
    split
    · rename_i hlt
      exact ⟨0, Nat.succ_pos _, rfl, Nat.succ_pos _, hlt⟩
    · obtain ⟨k, hk, hmonth, hday⟩ := ih (month + 1) (offset - length) (by omega)
      refine ⟨k + 1, Nat.succ_lt_succ hk, ?_, hday⟩
      rw [hmonth]
      omega

/-- A month has at least 28 days and at most 31. -/
theorem monthLengths_bounds (leap : Bool) :
    ∀ k < 12, 28 ≤ (monthLengths leap).getD k 0 ∧ (monthLengths leap).getD k 0 ≤ 31 := by
  cases leap <;> decide

namespace Date

variable {d : Date}

/-- What makes a date one: its month is one of twelve, and its day one of that month. -/
theorem isValid_iff : d.isValid = true ↔
    (1 ≤ d.month ∧ d.month ≤ 12) ∧ 1 ≤ d.day ∧
      d.day ≤ (monthLengths (isLeap d.year)).getD (d.month - 1) 0 := by
  unfold isValid daysInMonth
  simp only [Bool.and_eq_true, decide_eq_true_eq]
  constructor
  · rintro ⟨⟨⟨hlow, hhigh⟩, hday⟩, hlength⟩
    rw [if_neg (by omega)] at hlength
    exact ⟨⟨hlow, hhigh⟩, hday, hlength⟩
  · rintro ⟨⟨hlow, hhigh⟩, hday, hlength⟩
    rw [if_neg (by omega)]
    exact ⟨⟨⟨hlow, hhigh⟩, hday⟩, hlength⟩

theorem day_le (h : d.isValid) : d.day ≤ 31 := by
  obtain ⟨hmonth, -, hlength⟩ := isValid_iff.mp h
  have hlong := (monthLengths_bounds (isLeap d.year) (d.month - 1) (by omega)).2
  omega

/-- A date falls within its year. -/
theorem dayOfYear_lt (h : d.isValid) : d.dayOfYear < yearLength d.year := by
  obtain ⟨hmonth, hday, hlength⟩ := isValid_iff.mp h
  have hle := daysInFirst_add_le (isLeap d.year) (d.month - 1) (by omega)
  rw [daysInFirst_year] at hle
  unfold dayOfYear
  omega

/-- A date is read off its day number. -/
theorem ofDayNumber_dayNumber (h : d.isValid) : ofDayNumber d.dayNumber = d := by
  obtain ⟨hmonth, hday, hlength⟩ := isValid_iff.mp h
  have hnumber : d.dayNumber + 719162 = daysBeforeYear d.year + d.dayOfYear := by
    unfold dayNumber
    omega
  have hfrom := monthDay_offset 1 (monthLengths (isLeap d.year)) (d.month - 1) (d.day - 1)
    (by rw [length_monthLengths]; omega) (by omega)
  have hsame : 1 + (d.month - 1) = d.month ∧ d.day - 1 + 1 = d.day := by omega
  unfold ofDayNumber
  rw [hnumber, yearOfDay_eq (dayOfYear_lt h)]
  dsimp only
  rw [dayOfYear, hfrom, hsame.1, hsame.2]

/-- A day number is the number of the date that is read off it. -/
theorem dayNumber_ofDayNumber (n : Int) : (ofDayNumber n).dayNumber = n := by
  obtain ⟨hday, hlt⟩ := yearOfDay_spec (n + 719162)
  have hoffset : (yearOfDay (n + 719162)).2 <
      daysInFirst (monthLengths (isLeap (yearOfDay (n + 719162)).1)).length
        (monthLengths (isLeap (yearOfDay (n + 719162)).1)) := by
    rw [length_monthLengths, daysInFirst_year]
    exact hlt
  obtain ⟨hsum, -⟩ := offset_monthDay 1 _ _ hoffset
  unfold ofDayNumber dayNumber dayOfYear
  dsimp only
  rw [hsum]
  omega

/-- A date that is read off a day number is one of the calendar. -/
theorem isValid_ofDayNumber (n : Int) : (ofDayNumber n).isValid := by
  obtain ⟨-, hlt⟩ := yearOfDay_spec (n + 719162)
  obtain ⟨k, hk, hmonth, hday, hlength⟩ := monthDayFrom_bounds 1
    (monthLengths (isLeap (yearOfDay (n + 719162)).1)) (yearOfDay (n + 719162)).2 (by
      rw [length_monthLengths, daysInFirst_year]
      exact hlt)
  rw [length_monthLengths] at hk
  have hindex : 1 + k - 1 = k := by omega
  rw [isValid_iff]
  unfold ofDayNumber
  dsimp only
  rw [hmonth, hindex]
  exact ⟨⟨by omega, by omega⟩, hday, hlength⟩

/-- Dates with one number are one date. -/
theorem eq_of_dayNumber {d' : Date} (h : d.isValid) (h' : d'.isValid)
    (hnumber : d.dayNumber = d'.dayNumber) : d = d' := by
  rw [← ofDayNumber_dayNumber h, hnumber, ofDayNumber_dayNumber h']

/-- The next day has another number in its month. -/
theorem day_ne_of_succ {d' : Date} (h : d.isValid) (h' : d'.isValid)
    (hnext : d.dayNumber = d'.dayNumber + 1) : d.day ≠ d'.day := by
  intro hsame
  obtain ⟨hmonth, hday, hlength⟩ := isValid_iff.mp h
  obtain ⟨hmonth', hday', hlength'⟩ := isValid_iff.mp h'
  by_cases hfirst : d.day = 1
  · -- the second day of the earlier month would be the later day
    let second : Date := { d' with day := 2 }
    have hlong := (monthLengths_bounds (isLeap d'.year) (d'.month - 1) (by omega)).1
    have htwo : 1 ≤ 2 ∧ 2 ≤ 28 := by decide
    have hsecond : second.isValid :=
      isValid_iff.mpr ⟨hmonth', htwo.1, Nat.le_trans htwo.2 hlong⟩
    have hnumber : d.dayNumber = second.dayNumber := by
      rw [hnext]
      simp only [second, dayNumber, dayOfYear]
      omega
    have hdays : d.day = 2 := congrArg Date.day (eq_of_dayNumber h hsecond hnumber)
    omega
  · -- the day before in the later month would be the earlier day
    let before : Date := { d with day := d.day - 1 }
    have hpositive : 1 ≤ d.day - 1 := by omega
    have hbefore : before.isValid :=
      isValid_iff.mpr ⟨hmonth, hpositive, Nat.le_trans (Nat.sub_le ..) hlength⟩
    have hnumber : before.dayNumber = d'.dayNumber := by
      have hd : d.dayNumber = before.dayNumber + 1 := by
        simp only [before, dayNumber, dayOfYear]
        omega
      omega
    have hdays : d.day - 1 = d'.day := congrArg Date.day (eq_of_dayNumber hbefore h' hnumber)
    omega

end Date

-- ---------------------------------------------------------------------------
-- Wall clocks
-- ---------------------------------------------------------------------------

/-- A time of day falls within the day. -/
theorem TimeOfDay.toSeconds_lt {t : TimeOfDay} (h : t.isValid) : t.toSeconds < 86400 := by
  simp only [isValid, Bool.and_eq_true, decide_eq_true_eq] at h
  unfold toSeconds
  omega

/-- A time of day is found again from its seconds. -/
theorem TimeOfDay.ofSeconds_toSeconds {t : TimeOfDay} (h : t.isValid) :
    ofSeconds t.toSeconds = t := by
  simp only [isValid, Bool.and_eq_true, decide_eq_true_eq] at h
  unfold ofSeconds toSeconds
  obtain ⟨hour, minute, second⟩ := t
  simp only [mk.injEq] at h ⊢
  omega

namespace WallClock

/-- A clock is read off its seconds. -/
theorem ofSeconds_toSeconds {w : WallClock} (hdate : w.date.isValid) (htime : w.time.isValid) :
    ofSeconds w.toSeconds = w := by
  have hlt := TimeOfDay.toSeconds_lt htime
  have hday : w.toSeconds / 86400 = w.date.dayNumber := by
    unfold toSeconds
    omega
  have hrest : (w.toSeconds % 86400).toNat = w.time.toSeconds := by
    unfold toSeconds
    omega
  unfold ofSeconds
  rw [hday, hrest, Date.ofDayNumber_dayNumber hdate, TimeOfDay.ofSeconds_toSeconds htime]

/-- Seconds are those of the clock that is read off them. -/
theorem toSeconds_ofSeconds (seconds : Int) : (ofSeconds seconds).toSeconds = seconds := by
  have htime : (TimeOfDay.ofSeconds (seconds % 86400).toNat).toSeconds =
      (seconds % 86400).toNat := by
    unfold TimeOfDay.toSeconds TimeOfDay.ofSeconds
    dsimp only
    omega
  unfold ofSeconds toSeconds
  dsimp only
  rw [Date.dayNumber_ofDayNumber, htime]
  omega

end WallClock

end Formulae.Calendar
