import Formulae.Calendar.Date

/-!
# Instants and wall clocks

An instant is a number of seconds since 1 January 1970, 00:00 in UTC. A zone is a fixed distance
from UTC of less than a day, and shows an instant as a wall clock: a date and a time of day. Leap
seconds do not exist.

The instants are those whose date in UTC is supported. A zone may show the first and the last of
them on a day that is not, since its clock is ahead or behind.
-/

namespace Formulae.Calendar

/-! ## Zones -/

/-- A fixed distance from UTC in seconds, less than a day either way. -/
structure Zone where
  offset : Int
  lower : -86400 < offset
  upper : offset < 86400
deriving DecidableEq

/-- Coordinated universal time. -/
def Zone.utc : Zone :=
  ⟨0, by decide, by decide⟩

instance : Inhabited Zone := ⟨.utc⟩

/-- The zone at a distance; UTC when the distance is a day or more. -/
def Zone.ofSeconds (seconds : Int) : Zone :=
  if h : -86400 < seconds ∧ seconds < 86400 then ⟨seconds, h.1, h.2⟩ else .utc

/-! ## Wall clocks -/

structure TimeOfDay where
  hour : Nat
  minute : Nat
  second : Nat
deriving Repr, DecidableEq

namespace TimeOfDay

def midnight : TimeOfDay := ⟨0, 0, 0⟩

/-- Whether a day has this time. -/
def isValid (t : TimeOfDay) : Bool :=
  t.hour < 24 && t.minute < 60 && t.second < 60

/-- Seconds since midnight. -/
def toSeconds (t : TimeOfDay) : Nat :=
  3600 * t.hour + 60 * t.minute + t.second

/-- The time of day so many seconds after midnight. -/
def ofSeconds (n : Nat) : TimeOfDay :=
  ⟨n / 3600, n / 60 % 60, n % 60⟩

end TimeOfDay

/-- What a calendar and a clock on a wall show. -/
structure WallClock where
  date : Date
  time : TimeOfDay
deriving Repr, DecidableEq

namespace WallClock

/-- The week of the year, in blocks of seven days from 1 January. -/
def week (w : WallClock) : Nat :=
  w.date.dayOfYear / 7 + 1

/-- Seconds that a clock in UTC has passed since 1 January 1970 when it shows this. -/
def toSeconds (w : WallClock) : Int :=
  86400 * w.date.dayNumber + w.time.toSeconds

/-- What a clock in UTC shows so many seconds after 1 January 1970. -/
def ofSeconds (seconds : Int) : WallClock :=
  ⟨.ofDayNumber (seconds / 86400), .ofSeconds (seconds % 86400).toNat⟩

end WallClock

/-! ## Instants -/

/-- A moment, in seconds since 1 January 1970, 00:00 in UTC. -/
structure Instant where
  seconds : Int
deriving Repr, DecidableEq

namespace Instant

def first : Instant :=
  ⟨WallClock.toSeconds ⟨⟨-262143, 1, 1⟩, .midnight⟩⟩

def last : Instant :=
  ⟨WallClock.toSeconds ⟨⟨262142, 12, 31⟩, ⟨23, 59, 59⟩⟩⟩

/-- The instant at a number of seconds, if it is supported. -/
def ofSeconds? (seconds : Int) : Option Instant :=
  if first.seconds ≤ seconds ∧ seconds ≤ last.seconds then some ⟨seconds⟩ else none

/-- What a clock in a zone shows at an instant. -/
def localClock (zone : Zone) (i : Instant) : WallClock :=
  .ofSeconds (i.seconds + zone.offset)

/-- The instant at which a clock in a zone shows this, if it is supported. -/
def ofLocal? (zone : Zone) (w : WallClock) : Option Instant :=
  ofSeconds? (w.toSeconds - zone.offset)

end Instant

end Formulae.Calendar
