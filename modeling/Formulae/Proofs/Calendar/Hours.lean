import Formulae.Proofs.Number.Whole
import Formulae.Proofs.Calendar.Moments

/-!
# Hours

A moment of a formula is the number of a whole hour. All such numbers are whole numbers that doubles
hold without a loss, and so are their seconds. Since the first instant begins an hour, the hour of
an instant begins at an instant too. So an instant and the number of its hour are known from one
another, up to the seconds that have passed of the hour.

Main results:

* `ofHours_hourNumber` — the moment of the hour of an instant is its beginning.
* `hourNumber_le_iff` — the numbers of hours are in the order of the hours.
* `hours_round_trip` — what is kept of an instant that becomes the number of its hour.
-/

namespace Formulae.Calendar

namespace Instant

theorem first_seconds : first.seconds = -2315167008 * 3600 := by
  decide

theorem last_seconds : last.seconds = 2280629688 * 3600 - 1 := by
  decide

/-- The beginning of the hour of an instant. -/
def startOfHour (i : Instant) : Instant :=
  ⟨i.seconds / 3600 * 3600⟩

variable {i j : Instant}

/-- The hour of a supported moment begins at a supported moment, since the calendar begins on the
hour. -/
theorem IsSupported.startOfHour (h : i.IsSupported) : i.startOfHour.IsSupported := by
  obtain ⟨hfirst, hlast⟩ := h
  rw [first_seconds] at hfirst
  rw [last_seconds] at hlast
  unfold IsSupported Instant.startOfHour
  rw [first_seconds, last_seconds]
  dsimp only
  omega

/-- The hours of instants are few enough for a double to be exact. -/
theorem IsSupported.natAbs_hour_lt (h : i.IsSupported) : (i.seconds / 3600).natAbs < 2 ^ 53 := by
  obtain ⟨hfirst, hlast⟩ := h
  rw [first_seconds] at hfirst
  rw [last_seconds] at hlast
  omega

/-- The beginning of an hour is in it. -/
theorem hour_startOfHour (i : Instant) : i.startOfHour.seconds / 3600 = i.seconds / 3600 :=
  Int.mul_ediv_cancel _ (by decide)

end Instant

variable {i j : Instant}

/-- The moment of the hour of an instant is its beginning. -/
theorem ofHours_hourNumber (h : i.IsSupported) :
    ofHours (hourNumber i) = .ok i.startOfHour := by
  obtain ⟨hfirst, hlast⟩ := h.startOfHour
  rw [Instant.first_seconds] at hfirst
  rw [Instant.last_seconds] at hlast
  have hnumber : i.seconds / 3600 * (3600 : Nat) = i.startOfHour.seconds := rfl
  have hscale : (3600.0 : Float) = Float.ofNat 3600 := by decide
  have hproduct : Float.ofInt (i.seconds / 3600) * 3600.0 = Float.ofInt i.startOfHour.seconds := by
    rw [hscale, Number.ofInt_mul_ofNat (by omega) (by decide) (by decide) (by omega), hnumber]
  have hfloor : Number.floorInt? (hourNumber i * 3600.0) = some i.startOfHour.seconds := by
    rw [hourNumber, hproduct, Number.floorInt?_ofInt (by omega)]
  have hinstant : Instant.ofSeconds? i.startOfHour.seconds = some i.startOfHour :=
    Instant.ofSeconds?_eq_some_iff.mpr ⟨rfl, h.startOfHour⟩
  unfold ofHours
  rw [hfloor, Option.bind_some, hinstant]

/-- The numbers of hours are in the order of the hours. -/
theorem hourNumber_le_iff (hi : i.IsSupported) (hj : j.IsSupported) :
    hourNumber i ≤ hourNumber j ↔ i.seconds / 3600 ≤ j.seconds / 3600 :=
  Number.ofInt_le_iff hi.natAbs_hour_lt hj.natAbs_hour_lt

/-- The number of the hour of an instant is exactly the number of whole hours since 1970, rounded
down also before it. The moment of that number is the beginning of the hour, so that less than an
hour is lost and no beginning of an hour is passed, and doing the same again loses nothing more. An
instant that is not earlier has no smaller number. -/
theorem hours_round_trip (h : i.IsSupported) :
    Number.IsExactly (hourNumber i) (i.seconds / 3600) ∧
    (∃ start : Instant, ofHours (hourNumber i) = .ok start ∧
      start.seconds = 3600 * (i.seconds / 3600) ∧ start.IsSupported ∧
      start.seconds ≤ i.seconds ∧ i.seconds ≤ start.seconds + 3599 ∧
      (∀ hour : Int, 3600 * hour ≤ i.seconds → 3600 * hour ≤ start.seconds) ∧
      hourNumber start = hourNumber i ∧ ofHours (hourNumber start) = .ok start) ∧
    ∀ j : Instant, j.IsSupported → i.seconds ≤ j.seconds → hourNumber i ≤ hourNumber j := by
  have hnumber : hourNumber i.startOfHour = hourNumber i := by
    rw [hourNumber, Instant.hour_startOfHour, hourNumber]
  have hseconds : i.startOfHour.seconds = i.seconds / 3600 * 3600 := rfl
  refine ⟨Number.isExactly_ofInt h.natAbs_hour_lt, ⟨i.startOfHour, ofHours_hourNumber h, by omega,
    h.startOfHour, by omega, by omega, fun hour hle => by omega, hnumber, ?_⟩, fun j hj hle => ?_⟩
  · rw [hnumber, ofHours_hourNumber h]
  · exact (hourNumber_le_iff h hj).mpr (Int.ediv_le_ediv (by decide) hle)

/-- Half past eleven at night on 31 December 1969 is in the hour before the first one of 1970, which
is not after the hour of the last instant of all. -/
theorem hours_round_trip_beforeMidnight :
    let i : Instant := ⟨-1800⟩
    i.localClock .utc = ⟨⟨1969, 12, 31⟩, ⟨23, 30, 0⟩⟩ ∧ i.IsSupported ∧
      Instant.last.IsSupported ∧ hourNumber i ≤ hourNumber Instant.last ∧
      ∃ start, ofHours (-1.0) = .ok start ∧
        start.localClock .utc = ⟨⟨1969, 12, 31⟩, ⟨23, 0, 0⟩⟩ := by
  intro i
  have hi : i.IsSupported := ⟨by decide, by decide⟩
  have hlast : Instant.last.IsSupported := ⟨by decide, by decide⟩
  obtain ⟨-, ⟨start, hstart, hseconds, -⟩, hmonotone⟩ := hours_round_trip hi
  refine ⟨by decide, hi, hlast, hmonotone _ hlast (by decide), start, ?_, ?_⟩
  · exact hstart
  · obtain rfl : start = ⟨-3600⟩ := congrArg Instant.mk hseconds
    decide

end Formulae.Calendar
