import RepoCatalog.Time.Date
import RepoCatalog.Time.Duration

/-!
# Points in time

A point in time is a whole number of nanoseconds since the start of 1970. Sums and differences that
leave the calendar's range of years have no result.
-/
namespace RepoCatalog.Time

structure Instant where
  nanoseconds : Int
deriving DecidableEq, Inhabited

namespace Instant

def secondsPerDay : Int := 86400

def ofSeconds (seconds : Int) : Instant :=
  ⟨seconds * Duration.nanosecondsPerSecond⟩

def ofDate (d : Date) : Instant :=
  ofSeconds (d.toDays * secondsPerDay)

/-- The first point in time. -/
def first : Instant := ofDate ⟨-262143, 1, 1⟩

/-- The first point in time past the end. -/
def bound : Instant := ofDate ⟨262143, 1, 1⟩

def inRange (t : Instant) : Bool :=
  first.nanoseconds ≤ t.nanoseconds && t.nanoseconds < bound.nanoseconds

def add? (t : Instant) (d : Duration) : Option Instant :=
  let s : Instant := ⟨t.nanoseconds + d.nanoseconds⟩
  if s.inRange then some s else none

def sub? (t : Instant) (d : Duration) : Option Instant :=
  let s : Instant := ⟨t.nanoseconds - d.nanoseconds⟩
  if s.inRange then some s else none

def since (t s : Instant) : Duration :=
  ⟨t.nanoseconds - s.nanoseconds⟩

def year (t : Instant) : Int :=
  (Date.ofDays (t.nanoseconds.fdiv (secondsPerDay * Duration.nanosecondsPerSecond))).year

instance : LE Instant := ⟨fun a b => a.nanoseconds ≤ b.nanoseconds⟩

instance : LT Instant := ⟨fun a b => a.nanoseconds < b.nanoseconds⟩

instance (a b : Instant) : Decidable (a ≤ b) :=
  inferInstanceAs (Decidable (a.nanoseconds ≤ b.nanoseconds))

instance (a b : Instant) : Decidable (a < b) :=
  inferInstanceAs (Decidable (a.nanoseconds < b.nanoseconds))

end Instant

end RepoCatalog.Time
