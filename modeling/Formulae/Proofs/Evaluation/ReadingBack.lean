import Formulae.Proofs.Calendar.Hours
import Formulae.Proofs.Evaluation.WrittenCalls

/-!
# Reading back dates

A moment that was made of calendar fields is the number of the whole hour it falls in, counted in
UTC. Its fields are those of the beginning of that hour. A zone that is not a whole number of hours
away from UTC does not begin its days and hours with those hours, and what is read back lies before
what was put in: before the hour, and at midnight on the day before.

Main results:

* `yields_toDate`, `yields_toDateTime`, `answers_reading` — what the functions have as their values.
* `Engine.dates_agree_iff` — the fields are read back just in zones of whole hours.
-/

namespace Formulae

open Calendar Grammar Arguments Evaluation

variable {e : Engine} {c : Call}

-- ---------------------------------------------------------------------------
-- Fields
-- ---------------------------------------------------------------------------

/-- A written integer within the bounds of a field is the field. -/
theorem yields_component {low high k : Int} {index : Nat} (hc : c.args[index]? = some (toString k))
    (hk : k.natAbs ≤ maxInteger) (hbounds : low ≤ k ∧ k ≤ high) :
    e.Yields (component c low high index) k := by
  have hsmall : k.natAbs < 2 ^ 53 := Nat.lt_of_le_of_lt hk (by decide)
  have hfilter : (some k).filter (fun n => decide (low ≤ n) && decide (n ≤ high)) = some k := by
    simp [hbounds.1, hbounds.2]
  refine (Engine.Yields.argument hc (Engine.yields_integer hk)).bind ?_
  simp only [Number.floorInt?_ofInt hsmall, hfilter]
  exact e.yields_value k

/-- A written natural number is the field that is not checked any further. -/
theorem yields_field {n index : Nat} (hc : c.args[index]? = some (toString n))
    (hn : n ≤ maxInteger) : e.Yields (field c index) n := by
  have hbounds : (0 : Int) ≤ n ∧ (n : Int) ≤ 4294967295 := by
    have hmax : maxInteger ≤ 4294967295 := by decide
    omega
  have hcomponent : e.Yields (component c 0 4294967295 index) n := yields_component hc hn hbounds
  exact hcomponent.bind (e.yields_value n)

/-- A written integer is the year, whatever its sign. -/
theorem yields_yearField {k : Int} {index : Nat} (hc : c.args[index]? = some (toString k))
    (hk : k.natAbs ≤ maxInteger) : e.Yields (yearField c index) k := by
  have hmax : maxInteger = 2147483647 := rfl
  exact yields_component hc hk (by omega)

-- ---------------------------------------------------------------------------
-- Moments
-- ---------------------------------------------------------------------------

/-- The parts of a date and of a time are integers that can be written. -/
theorem fields_small {d : Date} (hvalid : d.isValid) (hsupported : d.isSupported) :
    d.day ≤ maxInteger ∧ d.month ≤ maxInteger ∧ d.year.natAbs ≤ maxInteger := by
  have hday := Date.day_le hvalid
  have hmonth := (Date.isValid_iff.mp hvalid).1
  simp only [Date.isSupported, Bool.and_eq_true, decide_eq_true_eq] at hsupported
  have hmax : maxInteger = 2147483647 := rfl
  omega

/-- The hour of the first moment of a date. -/
theorem yields_toDate {d : Date} {i : Instant} (hvalid : d.isValid) (hsupported : d.isSupported)
    (hargs : c.args = [toString d.day, toString d.month, toString d.year])
    (hi : Instant.ofLocal? c.zone ⟨d, .midnight⟩ = some i) :
    e.Yields (toDate c) (hourNumber i) := by
  obtain ⟨hday, hmonth, hyear⟩ := fields_small hvalid hsupported
  refine (yields_field (by rw [hargs]; rfl) hday).bind ?_
  refine (yields_field (by rw [hargs]; rfl) hmonth).bind ?_
  refine (yields_yearField (by rw [hargs]; rfl) hyear).bind ?_
  rw [dateAtMidnight_eq hvalid hsupported hi]
  exact e.yields_value _

/-- The hour of the moment that a clock shows. -/
theorem yields_toDateTime {w : WallClock} {i : Instant} (hvalid : w.date.isValid)
    (hsupported : w.date.isSupported) (htime : w.time.isValid)
    (hargs : c.args = [toString w.date.day, toString w.date.month, toString w.date.year,
      toString w.time.hour, toString w.time.minute, toString w.time.second])
    (hi : Instant.ofLocal? c.zone w = some i) : e.Yields (toDateTime c) (hourNumber i) := by
  obtain ⟨hday, hmonth, hyear⟩ := fields_small hvalid hsupported
  have htimes := htime
  simp only [TimeOfDay.isValid, Bool.and_eq_true, decide_eq_true_eq] at htimes
  have hmax : maxInteger = 2147483647 := rfl
  refine (yields_field (by rw [hargs]; rfl) hday).bind ?_
  refine (yields_field (by rw [hargs]; rfl) hmonth).bind ?_
  refine (yields_yearField (by rw [hargs]; rfl) hyear).bind ?_
  refine (yields_field (by rw [hargs]; rfl) (by omega : w.time.hour ≤ _)).bind ?_
  refine (yields_field (by rw [hargs]; rfl) (by omega : w.time.minute ≤ _)).bind ?_
  refine (yields_field (by rw [hargs]; rfl) (by omega : w.time.second ≤ _)).bind ?_
  rw [dateTime_eq hvalid hsupported htime hi]
  exact e.yields_value _

/-- A field of a moment is that of the beginning of its hour. -/
theorem yields_fieldOf {get : WallClock → Int} {moment : String} {i : Instant}
    (hargs : c.args = [moment]) (hi : i.IsSupported)
    (h : e.Yields (numericProgram e.context moment) (hourNumber i)) :
    e.Yields (fieldOf get c) (Float.ofInt (get (i.startOfHour.localClock c.zone))) := by
  have hinstant : e.Yields (instant c 0) i.startOfHour := by
    refine (Engine.Yields.argument (by rw [hargs]; rfl) h).bind ?_
    rw [ofHours_hourNumber hi]
    exact e.yields_value _
  have hclock : e.Yields (clockOf c) (i.startOfHour.localClock c.zone) :=
    hinstant.bind (e.yields_value _)
  exact hclock.bind (e.yields_value _)

-- ---------------------------------------------------------------------------
-- Formulas
-- ---------------------------------------------------------------------------

/-- A date as arguments. -/
def dateFields (d : Date) : List String :=
  [toString d.day, toString d.month, toString d.year]

/-- A time of day as arguments. -/
def timeFields (t : TimeOfDay) : List String :=
  [toString t.hour, toString t.minute, toString t.second]

/-- The formula for the first moment of a date. -/
def dateFormula (d : Date) : String :=
  writtenCall "todate" (dateFields d)

/-- The formula for the moment at which a clock shows this. -/
def dateTimeFormula (w : WallClock) : String :=
  writtenCall "todatetime" (dateFields w.date ++ timeFields w.time)

example : writtenCall "getday" [dateFormula ⟨2024, 3, 15⟩] = "getday(todate(15, 3, 2024))" := by
  decide +kernel

theorem isArgument_natural (n : Nat) : IsArgument (toString n) :=
  isArgument_integer n

/-- The fields of a date are written as arguments. -/
theorem isArgument_dateFields (d : Date) : ∀ a ∈ dateFields d, IsArgument a := by
  simp only [dateFields, List.mem_cons, List.not_mem_nil, or_false]
  rintro a (rfl | rfl | rfl)
  · exact isArgument_natural _
  · exact isArgument_natural _
  · exact isArgument_integer _

/-- So are those of a date and a time. -/
theorem isArgument_clockFields (w : WallClock) :
    ∀ a ∈ dateFields w.date ++ timeFields w.time, IsArgument a := by
  intro a ha
  rcases List.mem_append.mp ha with ha | ha
  · exact isArgument_dateFields w.date a ha
  · simp only [timeFields, List.mem_cons, List.not_mem_nil, or_false] at ha
    rcases ha with rfl | rfl | rfl <;> exact isArgument_natural _

/-- The formula for a date can be an argument itself. -/
theorem isArgument_dateFormula (d : Date) : IsArgument (dateFormula d) :=
  isArgument_writtenCall (isName_builtin .toDate) (isArgument_dateFields d)

/-- So can the formula for a date and a time. -/
theorem isArgument_dateTimeFormula (w : WallClock) : IsArgument (dateTimeFormula w) :=
  isArgument_writtenCall (isName_builtin .toDateTime) (isArgument_clockFields w)

/-- The formula for a date yields the hour in which the date begins. -/
theorem yields_dateFormula {d : Date} {i : Instant} (hvalid : d.isValid)
    (hsupported : d.isSupported)
    (hi : Instant.ofLocal? e.settings.zone ⟨d, .midnight⟩ = some i) :
    e.Yields (numericProgram e.context (dateFormula d)) (hourNumber i) := by
  obtain ⟨position, hprogram⟩ :=
    numericProgram_builtin e.context .toDate (isArgument_dateFields d)
  show e.Yields (numericProgram e.context (writtenCall Builtin.toDate.name _)) _
  rw [hprogram]
  exact yields_toDate hvalid hsupported rfl hi

/-- The formula for what a clock shows yields the hour in which it shows that. -/
theorem yields_dateTimeFormula {w : WallClock} {i : Instant} (hvalid : w.date.isValid)
    (hsupported : w.date.isSupported) (htime : w.time.isValid)
    (hi : Instant.ofLocal? e.settings.zone w = some i) :
    e.Yields (numericProgram e.context (dateTimeFormula w)) (hourNumber i) := by
  obtain ⟨position, hprogram⟩ :=
    numericProgram_builtin e.context .toDateTime (isArgument_clockFields w)
  show e.Yields (numericProgram e.context (writtenCall Builtin.toDateTime.name _)) _
  rw [hprogram]
  exact yields_toDateTime hvalid hsupported htime rfl hi

namespace Engine

/-- A function of a moment has this value. -/
def Answers (e : Engine) (function moment : String) (k : Int) : Prop :=
  ∃ calls, e.Calculates (writtenCall function [moment]) ⟨calls, .value (Float.ofInt k)⟩

/-- The functions of a moment read this date. -/
structure ReadsDate (e : Engine) (moment : String) (d : Date) : Prop where
  day : e.Answers "getday" moment d.day
  month : e.Answers "getmonth" moment d.month
  year : e.Answers "getyear" moment d.year

/-- A function of a moment has one answer, as far as doubles tell integers apart. -/
theorem Answers.unique {function moment : String} {k l : Int} (hk : e.Answers function moment k)
    (hl : e.Answers function moment l) (hksmall : k.natAbs < 2 ^ 53) (hlsmall : l.natAbs < 2 ^ 53) :
    k = l := by
  obtain ⟨calls, hk⟩ := hk
  obtain ⟨calls', hl⟩ := hl
  have hsame := hk.unique hl
  simp only [Run.mk.injEq, Outcome.value.injEq] at hsame
  exact (Number.ofInt_inj hksmall hlsmall).mp hsame.2

/-- A function that reads a field answers with that of the beginning of the hour. -/
theorem answers_reading {f : Builtin} {get : WallClock → Int} {moment : String} {i : Instant}
    (hf : f.numeric? = some (fieldOf get)) (harity : f.arity = .exactly 1)
    (hmoment : IsArgument moment) (hi : i.IsSupported)
    (h : e.Yields (numericProgram e.context moment) (hourNumber i)) :
    e.Answers f.name moment (get (i.startOfHour.localClock e.settings.zone)) := by
  obtain ⟨position, hprogram⟩ :=
    @numericProgram_builtin e.context f [moment] (by simpa using hmoment)
  have hnumber : ∀ c : Call, c.args.length = 1 → f.number c = fieldOf get c := by
    intro c hc
    unfold Builtin.number Builtin.checked
    rw [hf, harity, hc]
    rfl
  have hyields : e.Yields (numericProgram e.context (writtenCall f.name [moment]))
      (Float.ofInt (get (i.startOfHour.localClock e.settings.zone))) := by
    rw [hprogram, hnumber _ rfl]
    exact yields_fieldOf rfl hi h
  obtain ⟨calls, hsettles⟩ := hyields
  exact ⟨calls, calculates_iff_settles.mpr hsettles⟩

/-- The date that is read is that of the beginning of the hour. -/
theorem readsDate {moment : String} {i : Instant} (hmoment : IsArgument moment)
    (hi : i.IsSupported) (h : e.Yields (numericProgram e.context moment) (hourNumber i)) :
    e.ReadsDate moment (i.startOfHour.localClock e.settings.zone).date :=
  ⟨@answers_reading e .day _ _ _ rfl rfl hmoment hi h,
    @answers_reading e .month _ _ _ rfl rfl hmoment hi h,
    @answers_reading e .year _ _ _ rfl rfl hmoment hi h⟩

/-- So is the hour. -/
theorem readsHour {moment : String} {i : Instant} (hmoment : IsArgument moment)
    (hi : i.IsSupported) (h : e.Yields (numericProgram e.context moment) (hourNumber i)) :
    e.Answers "gethour" moment (i.startOfHour.localClock e.settings.zone).time.hour :=
  @answers_reading e .hour _ _ _ rfl rfl hmoment hi h

-- ---------------------------------------------------------------------------
-- Zones
-- ---------------------------------------------------------------------------

/-- A clock set back from a full hour to where an hour of UTC begins. -/
def setBack (e : Engine) (w : WallClock) : WallClock :=
  .ofSeconds (w.toSeconds - -e.settings.utcOffset % 3600)

/-- An offset of less than a day is the offset of the zone. -/
theorem zone_offset (hoffset : -86400 < e.settings.utcOffset ∧ e.settings.utcOffset < 86400) :
    e.settings.zone.offset = e.settings.utcOffset := by
  rw [Settings.zone, Zone.ofSeconds, dif_pos hoffset]

/-- The hour of UTC in which a full hour of the zone begins. -/
theorem localClock_startOfHour {w : WallClock} {i : Instant}
    (hoffset : -86400 < e.settings.utcOffset ∧ e.settings.utcOffset < 86400)
    (hfull : w.toSeconds % 3600 = 0) (hi : i.seconds = w.toSeconds - e.settings.zone.offset) :
    i.startOfHour.localClock e.settings.zone = e.setBack w := by
  rw [zone_offset hoffset] at hi
  have hseconds : i.startOfHour.seconds + e.settings.utcOffset =
      w.toSeconds - -e.settings.utcOffset % 3600 := by
    show i.seconds / 3600 * 3600 + _ = _
    omega
  unfold Instant.localClock setBack
  rw [zone_offset hoffset, hseconds]

/-- With an offset of whole hours no clock is set back. -/
theorem setBack_of_dvd {w : WallClock} (hdate : w.date.isValid) (htime : w.time.isValid)
    (h : 3600 ∣ e.settings.utcOffset) : e.setBack w = w := by
  have hnone : -e.settings.utcOffset % 3600 = 0 := by omega
  rw [setBack, hnone, Int.sub_zero, WallClock.ofSeconds_toSeconds hdate htime]

/-- The seconds of a full hour. -/
theorem toSeconds_full (d : Date) (hour : Nat) :
    WallClock.toSeconds ⟨d, ⟨hour, 0, 0⟩⟩ = 86400 * d.dayNumber + 3600 * hour := by
  unfold WallClock.toSeconds TimeOfDay.toSeconds
  dsimp only
  omega

/-- A clock that is set back from a full hour shows another hour. -/
theorem hour_setBack_ne {d : Date} {hour : Nat}
    (h : ¬ 3600 ∣ e.settings.utcOffset) : (e.setBack ⟨d, ⟨hour, 0, 0⟩⟩).time.hour ≠ hour := by
  have hback : 0 < -e.settings.utcOffset % 3600 ∧ -e.settings.utcOffset % 3600 < 3600 := by omega
  rw [setBack, toSeconds_full]
  show ((86400 * d.dayNumber + 3600 * hour - -e.settings.utcOffset % 3600) % 86400).toNat / 3600 ≠ _
  omega

/-- A clock that is set back from midnight shows the day before. -/
theorem day_setBack_ne {d : Date} (hdate : d.isValid) (h : ¬ 3600 ∣ e.settings.utcOffset) :
    (e.setBack ⟨d, .midnight⟩).date.day ≠ d.day := by
  have hday : (86400 * d.dayNumber + 3600 * (0 : Nat) - -e.settings.utcOffset % 3600) / 86400 =
      d.dayNumber - 1 := by
    have hback : 0 < -e.settings.utcOffset % 3600 ∧ -e.settings.utcOffset % 3600 < 3600 := by omega
    omega
  have hdate' : (e.setBack ⟨d, .midnight⟩).date = .ofDayNumber (d.dayNumber - 1) := by
    show (e.setBack ⟨d, ⟨0, 0, 0⟩⟩).date = _
    rw [setBack, toSeconds_full]
    exact congrArg Date.ofDayNumber hday
  rw [hdate']
  have hnext : d.dayNumber = (Date.ofDayNumber (d.dayNumber - 1)).dayNumber + 1 := by
    rw [Date.dayNumber_ofDayNumber]
    omega
  exact (Date.day_ne_of_succ hdate (Date.isValid_ofDayNumber _) hnext).symm

/-- What is read back of a date is midnight set back. -/
theorem readsDate_dateFormula {d : Date}
    (hoffset : -86400 < e.settings.utcOffset ∧ e.settings.utcOffset < 86400)
    (hdate : d.isValid) (hyear : d.isSupported)
    (hmidnight : (Instant.ofLocal? e.settings.zone ⟨d, .midnight⟩).isSome) :
    e.ReadsDate (dateFormula d) (e.setBack ⟨d, .midnight⟩).date := by
  obtain ⟨i, hi⟩ := Option.isSome_iff_exists.mp hmidnight
  obtain ⟨hseconds, hsupported⟩ := Instant.ofLocal?_eq_some_iff.mp hi
  have hfull : WallClock.toSeconds ⟨d, .midnight⟩ % 3600 = 0 := by
    have hzero : WallClock.toSeconds ⟨d, .midnight⟩ = _ := toSeconds_full d 0
    omega
  rw [← localClock_startOfHour hoffset hfull hseconds]
  exact readsDate (isArgument_dateFormula d) hsupported (yields_dateFormula hdate hyear hi)

/-- What is read back of a full hour is the hour set back. -/
theorem reads_dateTimeFormula {d : Date} {hour : Nat}
    (hoffset : -86400 < e.settings.utcOffset ∧ e.settings.utcOffset < 86400)
    (hdate : d.isValid) (hyear : d.isSupported) (hhour : hour < 24)
    (hmoment : (Instant.ofLocal? e.settings.zone ⟨d, ⟨hour, 0, 0⟩⟩).isSome) :
    e.ReadsDate (dateTimeFormula ⟨d, ⟨hour, 0, 0⟩⟩) (e.setBack ⟨d, ⟨hour, 0, 0⟩⟩).date ∧
      e.Answers "gethour" (dateTimeFormula ⟨d, ⟨hour, 0, 0⟩⟩)
        (e.setBack ⟨d, ⟨hour, 0, 0⟩⟩).time.hour := by
  obtain ⟨i, hi⟩ := Option.isSome_iff_exists.mp hmoment
  obtain ⟨hseconds, hsupported⟩ := Instant.ofLocal?_eq_some_iff.mp hi
  have htime : (⟨hour, 0, 0⟩ : TimeOfDay).isValid := by
    simpa [TimeOfDay.isValid] using hhour
  have hfull : WallClock.toSeconds ⟨d, ⟨hour, 0, 0⟩⟩ % 3600 = 0 := by
    have hseconds := toSeconds_full d hour
    omega
  have hyields := yields_dateTimeFormula hdate hyear htime hi
  rw [← localClock_startOfHour hoffset hfull hseconds]
  exact ⟨readsDate (isArgument_dateTimeFormula _) hsupported hyields,
    readsHour (isArgument_dateTimeFormula _) hsupported hyields⟩

/-- A date and a full hour are made into moments and read back. What is read is the clock set back
to where an hour of UTC begins, which is the clock itself just in zones of whole hours. In all other
zones the day of a date is read as the day before, and the hour as an earlier one. -/
theorem dates_agree_iff (e : Engine) (d : Date) (hour : Nat)
    (hoffset : -86400 < e.settings.utcOffset ∧ e.settings.utcOffset < 86400)
    (hdate : d.isValid) (hyear : d.isSupported) (hhour : hour < 24)
    (hmidnight : (Instant.ofLocal? e.settings.zone ⟨d, .midnight⟩).isSome)
    (hmoment : (Instant.ofLocal? e.settings.zone ⟨d, ⟨hour, 0, 0⟩⟩).isSome) :
    (e.ReadsDate (dateFormula d) (e.setBack ⟨d, .midnight⟩).date ∧
      e.ReadsDate (dateTimeFormula ⟨d, ⟨hour, 0, 0⟩⟩) (e.setBack ⟨d, ⟨hour, 0, 0⟩⟩).date ∧
      e.Answers "gethour" (dateTimeFormula ⟨d, ⟨hour, 0, 0⟩⟩)
        (e.setBack ⟨d, ⟨hour, 0, 0⟩⟩).time.hour) ∧
    (e.ReadsDate (dateFormula d) d ∧ e.ReadsDate (dateTimeFormula ⟨d, ⟨hour, 0, 0⟩⟩) d ∧
        e.Answers "gethour" (dateTimeFormula ⟨d, ⟨hour, 0, 0⟩⟩) hour ↔
      3600 ∣ e.settings.utcOffset) ∧
    (e.Answers "getday" (dateFormula d) d.day ↔ 3600 ∣ e.settings.utcOffset) ∧
    (e.Answers "gethour" (dateTimeFormula ⟨d, ⟨hour, 0, 0⟩⟩) hour ↔
      3600 ∣ e.settings.utcOffset) := by
  have hreadDate := readsDate_dateFormula hoffset hdate hyear hmidnight
  obtain ⟨hreadDateTime, hreadHour⟩ := reads_dateTimeFormula hoffset hdate hyear hhour hmoment
  have hagree : 3600 ∣ e.settings.utcOffset →
      e.ReadsDate (dateFormula d) d ∧ e.ReadsDate (dateTimeFormula ⟨d, ⟨hour, 0, 0⟩⟩) d ∧
        e.Answers "gethour" (dateTimeFormula ⟨d, ⟨hour, 0, 0⟩⟩) hour := by
    intro h
    have htime : (⟨hour, 0, 0⟩ : TimeOfDay).isValid := by
      simpa [TimeOfDay.isValid] using hhour
    rw [setBack_of_dvd hdate rfl h] at hreadDate
    rw [setBack_of_dvd hdate htime h] at hreadDateTime hreadHour
    exact ⟨hreadDate, hreadDateTime, hreadHour⟩
  -- in all other zones another day and another hour are read
  have hday : e.Answers "getday" (dateFormula d) d.day → 3600 ∣ e.settings.utcOffset := by
    intro h
    refine Decidable.byContradiction fun hpart => ?_
    have hvalid : (e.setBack ⟨d, .midnight⟩).date.isValid := Date.isValid_ofDayNumber _
    have hle := Date.day_le hdate
    have hle' := Date.day_le hvalid
    have hsame := hreadDate.day.unique h (by omega) (by omega)
    have hne := day_setBack_ne hdate hpart
    omega
  have hhours : e.Answers "gethour" (dateTimeFormula ⟨d, ⟨hour, 0, 0⟩⟩) hour →
      3600 ∣ e.settings.utcOffset := by
    intro h
    refine Decidable.byContradiction fun hpart => ?_
    have hlt : (e.setBack ⟨d, ⟨hour, 0, 0⟩⟩).time.hour < 24 := by
      show (_ % 86400 : Int).toNat / 3600 < 24
      omega
    have hsame := hreadHour.unique h (by omega) (by omega)
    have hne := @hour_setBack_ne e d hour hpart
    omega
  exact ⟨⟨hreadDate, hreadDateTime, hreadHour⟩, ⟨fun h => hhours h.2.2, hagree⟩,
    ⟨hday, fun h => (hagree h).1.day⟩, ⟨hhours, fun h => (hagree h).2.2⟩⟩

/-- An engine five and a half hours ahead of UTC. -/
def halfHourAhead : Engine :=
  { settings := { utcOffset := 19800 } }

/-- Half an hour ahead of full hours the day and the hour before are read. -/
theorem dates_agree_iff_halfHourAhead :
    (-86400 < halfHourAhead.settings.utcOffset ∧ halfHourAhead.settings.utcOffset < 86400) ∧
      Date.isValid ⟨2024, 3, 15⟩ ∧ Date.isSupported ⟨2024, 3, 15⟩ ∧ 10 < 24 ∧
      (Instant.ofLocal? halfHourAhead.settings.zone ⟨⟨2024, 3, 15⟩, .midnight⟩).isSome ∧
      (Instant.ofLocal? halfHourAhead.settings.zone ⟨⟨2024, 3, 15⟩, ⟨10, 0, 0⟩⟩).isSome ∧
      halfHourAhead.Answers "getday" (dateFormula ⟨2024, 3, 15⟩) 14 ∧
      ¬ halfHourAhead.Answers "getday" (dateFormula ⟨2024, 3, 15⟩) 15 ∧
      ¬ halfHourAhead.Answers "gethour" (dateTimeFormula ⟨⟨2024, 3, 15⟩, ⟨10, 0, 0⟩⟩) 10 := by
  have hoffset : -86400 < halfHourAhead.settings.utcOffset ∧
      halfHourAhead.settings.utcOffset < 86400 := by decide
  have hmidnight :
      (Instant.ofLocal? halfHourAhead.settings.zone ⟨⟨2024, 3, 15⟩, .midnight⟩).isSome := by
    decide +kernel
  have hmoment :
      (Instant.ofLocal? halfHourAhead.settings.zone ⟨⟨2024, 3, 15⟩, ⟨10, 0, 0⟩⟩).isSome := by
    decide +kernel
  have hpart : ¬ 3600 ∣ halfHourAhead.settings.utcOffset := by decide
  obtain ⟨hread, -, hday, hhour⟩ := dates_agree_iff halfHourAhead ⟨2024, 3, 15⟩ 10 hoffset
    (by decide) (by decide) (by decide) hmidnight hmoment
  have hbefore : (halfHourAhead.setBack ⟨⟨2024, 3, 15⟩, .midnight⟩).date.day = 14 := by
    decide +kernel
  have hread' := hread.1.day
  rw [hbefore] at hread'
  exact ⟨hoffset, by decide, by decide, by decide, hmidnight, hmoment, hread',
    fun h => hpart (hday.mp h), fun h => hpart (hhour.mp h)⟩

end Engine

end Formulae
