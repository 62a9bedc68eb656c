import Formulae.Proofs.Calendar.Moments

/-!
# Civil time

A moment is made of a year, a month, a day, an hour, a minute and a second in a zone, and a clock in
that zone shows six such numbers at a moment. Each undoes the other, before 1970 and before the year
`0` as well, and a moment is refused for two reasons only: there is no such day, or no such time of
it.

Which days there are is said apart from the table of the months that they are counted by: they are
those of the Gregorian calendar (`Date.isValid_iff_isGregorian`).

Main result: `dateTime_inverts_localClock`.
-/

namespace Formulae.Calendar

-- ---------------------------------------------------------------------------
-- Days of the calendar
-- ---------------------------------------------------------------------------

/-- The lengths of the months. -/
theorem getD_monthLengths (leap : Bool) : ∀ k < 12, (monthLengths leap).getD k 0 =
    if k = 1 then (if leap then 29 else 28) else if k ∈ [3, 5, 8, 10] then 30 else 31 := by
  cases leap <;> decide

/-- A month that is counted from one on has the length that stands at its place in the table. -/
theorem daysInMonth_eq {year : Int} {month : Nat} (h : 1 ≤ month) :
    daysInMonth year month = (monthLengths (isLeap year)).getD (month - 1) 0 :=
  if_neg (by omega)

/-- The months up to the next one are those before this one and itself. -/
theorem daysInFirst_succ (leap : Bool) : ∀ k < 12, daysInFirst (k + 1) (monthLengths leap) =
    daysInFirst k (monthLengths leap) + (monthLengths leap).getD k 0 := by
  cases leap <;> decide

namespace Date

variable {d : Date}

/-- A day of the proleptic Gregorian calendar. April, June, September and November have 30 days,
February has 28 and in leap years 29, and the other months have 31. Every fourth year is a leap
year, except those that end a century not divisible by 400. -/
structure IsGregorian (d : Date) : Prop where
  month : 1 ≤ d.month ∧ d.month ≤ 12
  day : 1 ≤ d.day ∧ d.day ≤ 31
  short : d.month ∈ [4, 6, 9, 11] → d.day ≤ 30
  february : d.month = 2 → d.day ≤ 29
  leap : d.month = 2 ∧ d.day = 29 → d.year % 4 = 0 ∧ (d.year % 100 ≠ 0 ∨ d.year % 400 = 0)

/-- There are those dates that the rules of the Gregorian calendar allow. -/
theorem isValid_iff_isGregorian : d.isValid = true ↔ d.IsGregorian := by
  rw [isValid_iff]
  constructor
  · rintro ⟨hmonth, hday, hlength⟩
    rw [getD_monthLengths _ _ (by omega)] at hlength
    simp only [isLeap_iff, List.mem_cons, List.not_mem_nil, or_false] at hlength
    refine ⟨hmonth, ⟨hday, ?_⟩, fun hshort => ?_, fun hfebruary => ?_, fun hlast => ?_⟩
    · split at hlength
      · split at hlength <;> omega
      · split at hlength <;> omega
    · simp only [List.mem_cons, List.not_mem_nil, or_false] at hshort
      rw [if_neg (by omega), if_pos (by omega)] at hlength
      exact hlength
    · rw [if_pos (by omega)] at hlength
      split at hlength <;> omega
    · rw [if_pos (by omega)] at hlength
      split at hlength
      · assumption
      · omega
  · rintro ⟨hmonth, hday, hshort, hfebruary, hleap⟩
    refine ⟨hmonth, hday.1, ?_⟩
    rw [getD_monthLengths _ _ (by omega)]
    simp only [isLeap_iff, List.mem_cons, List.not_mem_nil, or_false] at hshort ⊢
    split
    · split <;> omega
    · split <;> omega

/-- The first day of the month of a date. -/
def monthStart (d : Date) : Date :=
  { d with day := 1 }

/-- The last day of the month of a date. -/
def monthEnd (d : Date) : Date :=
  { d with day := daysInMonth d.year d.month }

theorem isValid_monthStart (h : d.isValid) : d.monthStart.isValid := by
  obtain ⟨hmonth, hday, hlength⟩ := isValid_iff.mp h
  exact isValid_iff.mpr ⟨hmonth, Nat.le_refl 1, Nat.le_trans hday hlength⟩

/-- The last day of a month is a day of it. -/
theorem isValid_monthEnd (h : d.isValid) : d.monthEnd.isValid := by
  obtain ⟨hmonth, -⟩ := isValid_iff.mp h
  have hlong := (monthLengths_bounds (isLeap d.year) (d.month - 1) (by omega)).1
  rw [monthEnd, daysInMonth_eq hmonth.1, isValid_iff]
  exact ⟨hmonth, by dsimp only; omega, Nat.le_refl _⟩

/-- A month goes on to the day before the next one. -/
theorem dayNumber_nextMonth (h : d.isValid) :
    d.nextMonth.dayNumber = d.monthEnd.dayNumber + 1 := by
  obtain ⟨hmonth, -⟩ := isValid_iff.mp h
  have hlong := (monthLengths_bounds (isLeap d.year) (d.month - 1) (by omega)).1
  have hsucc := daysInFirst_succ (isLeap d.year) (d.month - 1) (by omega)
  rw [Nat.sub_add_cancel hmonth.1] at hsucc
  rw [monthEnd, daysInMonth_eq hmonth.1]
  unfold dayNumber dayOfYear nextMonth
  by_cases hdecember : d.month = 12
  · -- the year is over, too
    have hyear := daysBeforeYear_succ d.year
    have hnone : daysInFirst (1 - 1) (monthLengths (isLeap (d.year + 1))) = 0 := rfl
    rw [← daysInFirst_year] at hyear
    rw [if_pos hdecember]
    dsimp only
    rw [hdecember] at hsucc hlong ⊢
    omega
  · rw [if_neg hdecember]
    dsimp only
    rw [Nat.add_sub_cancel]
    omega

end Date

-- ---------------------------------------------------------------------------
-- Moments and what is shown at them
-- ---------------------------------------------------------------------------

theorem TimeOfDay.isValid_iff {t : TimeOfDay} :
    t.isValid = true ↔ t.hour < 24 ∧ t.minute < 60 ∧ t.second < 60 := by
  simp [isValid, and_assoc]

/-- Seconds within a day are a time of day. -/
theorem TimeOfDay.isValid_ofSeconds {n : Nat} (h : n < 86400) : (ofSeconds n).isValid = true := by
  rw [isValid_iff]
  unfold ofSeconds
  dsimp only
  omega

namespace Instant

variable {zone : Zone} {w : WallClock} {i : Instant}

/-- The moment at which a clock in a zone shows this, supported or not. -/
def showing (zone : Zone) (w : WallClock) : Instant :=
  ⟨w.toSeconds - zone.offset⟩

/-- The moment of a clock is the one at which it is shown, unless that lies beyond the calendar. -/
theorem ofLocal?_eq_some_iff_showing :
    ofLocal? zone w = some i ↔ i = showing zone w ∧ (showing zone w).IsSupported := by
  rw [ofLocal?_eq_some_iff]
  constructor
  · rintro ⟨hseconds, hsupported⟩
    obtain rfl : i = showing zone w := congrArg Instant.mk hseconds
    exact ⟨rfl, hsupported⟩
  · rintro ⟨rfl, hsupported⟩
    exact ⟨rfl, hsupported⟩

/-- At the moment at which a clock shows this, it shows this. -/
theorem localClock_showing (hdate : w.date.isValid) (htime : w.time.isValid) :
    (showing zone w).localClock zone = w := by
  unfold localClock showing
  dsimp only
  rw [Int.sub_add_cancel, WallClock.ofSeconds_toSeconds hdate htime]

/-- What a clock shows at a moment, it shows at that moment only. -/
theorem showing_localClock (zone : Zone) (i : Instant) : showing zone (i.localClock zone) = i := by
  unfold localClock showing
  rw [WallClock.toSeconds_ofSeconds, Int.add_sub_cancel]

/-- A clock shows days of the calendar and times of them. -/
theorem isValid_localClock (zone : Zone) (i : Instant) :
    (i.localClock zone).date.isValid = true ∧ (i.localClock zone).time.isValid = true :=
  ⟨Date.isValid_ofDayNumber _, TimeOfDay.isValid_ofSeconds (by omega)⟩

end Instant

-- ---------------------------------------------------------------------------
-- Making moments
-- ---------------------------------------------------------------------------

variable {zone : Zone} {w : WallClock}

/-- What is made of the date and the time that a clock shows. -/
def WallClock.made (zone : Zone) (w : WallClock) : Except CalendarError Instant :=
  dateTime zone w.date.year w.date.month w.date.day w.time.hour w.time.minute w.time.second

namespace WallClock

/-- A clock that shows no date of the calendar is refused for its date. -/
theorem made_of_no_date (h : ¬(w.date.isValid ∧ w.date.isSupported)) :
    w.made zone = .error (.invalidDate w.date.year w.date.month w.date.day) := by
  rw [made, dateTime, dateOf_eq_error h]
  rfl

/-- A clock that shows a date, but no time of that day, is refused for its time. -/
theorem made_of_no_time (hdate : w.date.isValid ∧ w.date.isSupported)
    (htime : ¬(w.time.isValid ∧ (Instant.showing zone w).IsSupported)) :
    w.made zone = .error (.invalidTime w.time.hour w.time.minute w.time.second) := by
  have hnone : (if w.time.isValid then Instant.ofLocal? zone w else none) = none := by
    refine Option.eq_none_iff_forall_ne_some.mpr fun i hi => ?_
    split at hi
    · rename_i hvalid
      exact htime ⟨hvalid, (Instant.ofLocal?_eq_some_iff_showing.mp hi).2⟩
    · simp at hi
  rw [made, dateTime, dateOf_eq hdate.1 hdate.2]
  dsimp only [bind, Except.bind]
  rw [hnone]

/-- Any other clock is shown at one moment. -/
theorem made_eq (hdate : w.date.isValid ∧ w.date.isSupported)
    (htime : w.time.isValid ∧ (Instant.showing zone w).IsSupported) :
    w.made zone = .ok (.showing zone w) :=
  dateTime_eq hdate.1 hdate.2 htime.1 (Instant.ofLocal?_eq_some_iff_showing.mpr ⟨rfl, htime.2⟩)

end WallClock

/-- In every zone six numbers and the moment at which a clock shows them determine each other. There
is such a moment just if the numbers are a supported day of the calendar and a time of day, and the
moment is supported in UTC, too. Without such a day the date is blamed, and the time otherwise. -/
theorem dateTime_inverts_localClock (zone : Zone) :
    (∀ (year : Int) (month day hour minute second : Nat),
      let made := dateTime zone year month day hour minute second
      let date : Date := ⟨year, month, day⟩
      ((∃ i, made = .ok i) ↔
        date.IsGregorian ∧ hour < 24 ∧ minute < 60 ∧ second < 60 ∧ date.isSupported ∧
          (Instant.showing zone ⟨date, ⟨hour, minute, second⟩⟩).IsSupported) ∧
      (∀ i, made = .ok i → i.localClock zone = ⟨date, ⟨hour, minute, second⟩⟩) ∧
      ∀ e, made = .error e →
        ¬(date.IsGregorian ∧ date.isSupported) ∧ e = .invalidDate year month day ∨
          (date.IsGregorian ∧ date.isSupported) ∧ e = .invalidTime hour minute second) ∧
    ∀ i : Instant, i.IsSupported → (i.localClock zone).date.isSupported →
      let w := i.localClock zone
      dateTime zone w.date.year w.date.month w.date.day w.time.hour w.time.minute w.time.second =
        .ok i := by
  constructor
  · intro year month day hour minute second
    let w : WallClock := ⟨⟨year, month, day⟩, ⟨hour, minute, second⟩⟩
    have htime : w.time.isValid = true ↔ hour < 24 ∧ minute < 60 ∧ second < 60 :=
      TimeOfDay.isValid_iff
    intro made date
    have hmade : made = w.made zone := rfl
    rw [← Date.isValid_iff_isGregorian]
    by_cases hdate : w.date.isValid = true ∧ w.date.isSupported = true
    · by_cases hvalid : w.time.isValid = true ∧ (Instant.showing zone w).IsSupported
      · have hok : made = .ok (.showing zone w) := hmade.trans (WallClock.made_eq hdate hvalid)
        rw [hok]
        refine ⟨iff_of_true ⟨_, rfl⟩ ?_, ?_, by simp⟩
        · obtain ⟨hhour, hminute, hsecond⟩ := htime.mp hvalid.1
          exact ⟨hdate.1, hhour, hminute, hsecond, hdate.2, hvalid.2⟩
        · rintro i ⟨⟩
          exact Instant.localClock_showing hdate.1 hvalid.1
      · have herror : made = .error (.invalidTime hour minute second) :=
          hmade.trans (WallClock.made_of_no_time hdate hvalid)
        rw [herror]
        refine ⟨iff_of_false (by simp) ?_, by simp, ?_⟩
        · rintro ⟨-, hhour, hminute, hsecond, -, hsupported⟩
          exact hvalid ⟨htime.mpr ⟨hhour, hminute, hsecond⟩, hsupported⟩
        · rintro e ⟨⟩
          exact .inr ⟨hdate, rfl⟩
    · have herror : made = .error (.invalidDate year month day) :=
        hmade.trans (WallClock.made_of_no_date hdate)
      rw [herror]
      refine ⟨iff_of_false (by simp) ?_, by simp, ?_⟩
      · rintro ⟨hgregorian, -, -, -, hsupported, -⟩
        exact hdate ⟨hgregorian, hsupported⟩
      · rintro e ⟨⟩
        exact .inl ⟨hdate, rfl⟩
  · intro i hsupported hdate
    have hshowing := Instant.showing_localClock zone i
    obtain ⟨hvalid, htime⟩ := Instant.isValid_localClock zone i
    show (i.localClock zone).made zone = .ok i
    rw [WallClock.made_eq ⟨hvalid, hdate⟩ ⟨htime, by rwa [hshowing]⟩, hshowing]

/-- The leap day of the year 0 begins in a zone that is ahead while UTC has the day before. -/
theorem dateTime_inverts_localClock_leapDay :
    let east := Zone.ofSeconds 19800
    let i : Instant := ⟨-62162140500⟩
    i.localClock east = ⟨⟨0, 2, 29⟩, ⟨0, 15, 0⟩⟩ ∧ dateTime east 0 2 29 0 15 0 = .ok i := by
  intro east i
  have hclock : i.localClock east = ⟨⟨0, 2, 29⟩, ⟨0, 15, 0⟩⟩ := by decide
  have hmade := (dateTime_inverts_localClock east).2 i ⟨by decide, by decide⟩ (by decide)
  rw [hclock] at hmade
  exact ⟨hclock, hmade⟩

end Formulae.Calendar
