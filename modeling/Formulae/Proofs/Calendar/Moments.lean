import Formulae.Calendar.Moment
import Formulae.Proofs.Calendar.Days

/-!
# Making moments

A date of the calendar and a time of day are made into the instant at which a local clock shows
them, as long as this is one of the instants.

Main results: `dateAtMidnight_eq` and `dateTime_eq`.
-/

namespace Formulae.Calendar

namespace Instant

/-- The instant lies between the first and the last one. -/
def IsSupported (i : Instant) : Prop :=
  first.seconds ≤ i.seconds ∧ i.seconds ≤ last.seconds

/-- A number of seconds is a moment if it lies in the calendar. -/
theorem ofSeconds?_eq_some_iff {seconds : Int} {i : Instant} :
    ofSeconds? seconds = some i ↔ i.seconds = seconds ∧ i.IsSupported := by
  unfold ofSeconds? IsSupported
  constructor
  · intro h
    split at h
    · rename_i hbounds
      obtain rfl := Option.some.inj h
      exact ⟨rfl, hbounds⟩
    · exact absurd h (by simp)
  · rintro ⟨rfl, hbounds⟩
    rw [if_pos hbounds]

/-- A clock's moment is as many seconds before the clock as the zone is ahead. -/
theorem ofLocal?_eq_some_iff {zone : Zone} {w : WallClock} {i : Instant} :
    ofLocal? zone w = some i ↔ i.seconds = w.toSeconds - zone.offset ∧ i.IsSupported :=
  ofSeconds?_eq_some_iff

end Instant

variable {zone : Zone} {d : Date} {i : Instant}

/-- The three numbers of a supported date make that date. -/
theorem dateOf_eq (hvalid : d.isValid) (hsupported : d.isSupported) :
    dateOf d.year d.month d.day = .ok d := by
  have hfields : Date.ofFields? d.year d.month d.day = some d := by
    show (if d.isValid && d.isSupported then some d else none) = some d
    rw [hvalid, hsupported]
    rfl
  rw [dateOf, hfields]

/-- Where the calendar has no such day, or does not support it, there is no date. -/
theorem dateOf_eq_error (h : ¬(d.isValid ∧ d.isSupported)) :
    dateOf d.year d.month d.day = .error (.invalidDate d.year d.month d.day) := by
  have hfields : Date.ofFields? d.year d.month d.day = none := by
    show (if d.isValid && d.isSupported then some d else none) = none
    rw [if_neg (by rwa [Bool.and_eq_true])]
  rw [dateOf, hfields]

/-- The first moment of a date. -/
theorem dateAtMidnight_eq (hvalid : d.isValid) (hsupported : d.isSupported)
    (hi : Instant.ofLocal? zone ⟨d, .midnight⟩ = some i) :
    dateAtMidnight zone d.year d.month d.day = .ok i := by
  rw [dateAtMidnight, dateOf_eq hvalid hsupported]
  show startOfDay zone d = .ok i
  delta startOfDay
  rw [hi]

/-- The moment at which a clock shows a date and a time. -/
theorem dateTime_eq {t : TimeOfDay} (hvalid : d.isValid) (hsupported : d.isSupported)
    (htime : t.isValid) (hi : Instant.ofLocal? zone ⟨d, t⟩ = some i) :
    dateTime zone d.year d.month d.day t.hour t.minute t.second = .ok i := by
  have hmoment : (if t.isValid then Instant.ofLocal? zone ⟨d, t⟩ else none) = some i := by
    rw [if_pos htime, hi]
  rw [dateTime, dateOf_eq hvalid hsupported]
  dsimp only [bind, Except.bind]
  rw [hmoment]

end Formulae.Calendar
