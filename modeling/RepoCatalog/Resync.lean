import RepoCatalog.Diff

/-!
# When to look again

A service that changed is looked at again after the minimum interval. One that did not is left
alone for twice the time since the last pass, at least the minimum interval and, where that allows,
at most eight hours.
-/
namespace RepoCatalog.Resync

open Time

/-- The longest time for which a quiet service is left alone. -/
def longest : Duration := ⟨8 * 60 * 60 * Duration.nanosecondsPerSecond⟩

/-- The interval of a service that did not change. -/
def backOff (now last : Instant) (least : Duration) : Duration :=
  let interval := (now.since last).double
  if interval < least then least
  else if longest < interval then longest
  else interval

/-- The interval after a pass: the minimum if there was none before or if this one changed
something. -/
def interval (now : Instant) (last : Option Instant) (least : Duration) (changed : Bool) :
    Duration :=
  match last with
  | none => least
  | some last => if changed then least else backOff now last least

def afterBatch (now : Instant) (last : Option Instant) (least : Duration) (d : Diff) : Duration :=
  interval now last least d.hasChanges

/-- The interval after a streaming pass. A pass with errors counts as quiet. -/
def afterStream (now : Instant) (last : Option Instant) (least : Duration)
    (modified errored : Bool) : Duration :=
  interval now last least (modified && !errored)

end RepoCatalog.Resync
