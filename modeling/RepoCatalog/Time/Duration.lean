/-!
# Lengths of time

A length of time is a whole number of nanoseconds. What can be held is bounded by the milliseconds
that fit a signed 64-bit number.
-/
namespace RepoCatalog.Time

/-- A length of time, which may be negative. -/
structure Duration where
  nanoseconds : Int
deriving DecidableEq, Inhabited

namespace Duration

def nanosecondsPerSecond : Int := 1000000000

/-- The most whole seconds that a length of time made from seconds can have. -/
def mostSeconds : Int := 9223372036854775

def longest : Duration := ⟨9223372036854775807 * 1000000⟩

def ofSeconds? (seconds : Int) : Option Duration :=
  if -mostSeconds ≤ seconds ∧ seconds ≤ mostSeconds then
    some ⟨seconds * nanosecondsPerSecond⟩
  else none

def add? (a b : Duration) : Option Duration :=
  let n := a.nanoseconds + b.nanoseconds
  if -longest.nanoseconds ≤ n ∧ n ≤ longest.nanoseconds then some ⟨n⟩ else none

/-- Whole seconds, cut off towards zero. -/
def seconds (d : Duration) : Int :=
  d.nanoseconds.tdiv nanosecondsPerSecond

/-- What is left beside the whole seconds, with the sign of the length. -/
def subsecond (d : Duration) : Int :=
  d.nanoseconds.tmod nanosecondsPerSecond

def double (d : Duration) : Duration :=
  ⟨d.nanoseconds * 2⟩

instance : LE Duration := ⟨fun a b => a.nanoseconds ≤ b.nanoseconds⟩

instance : LT Duration := ⟨fun a b => a.nanoseconds < b.nanoseconds⟩

instance (a b : Duration) : Decidable (a ≤ b) :=
  inferInstanceAs (Decidable (a.nanoseconds ≤ b.nanoseconds))

instance (a b : Duration) : Decidable (a < b) :=
  inferInstanceAs (Decidable (a.nanoseconds < b.nanoseconds))

end Duration

end RepoCatalog.Time
