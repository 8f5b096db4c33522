/-!
# States of a job

A job is queued, then processed; a pass that succeeds completes it. One that fails leaves it
errored, to be tried again, until its budget is spent and it has failed for good.
-/
namespace RepoCatalog

inductive JobState where
  | queued
  | processing
  | completed
  | errored
  | failed
deriving DecidableEq, Inhabited

namespace JobState

def all : List JobState :=
  [.queued, .processing, .completed, .errored, .failed]

def name : JobState → String
  | .queued => "queued"
  | .processing => "processing"
  | .completed => "completed"
  | .errored => "errored"
  | .failed => "failed"

/-- The state of this name, which must match exactly. -/
def ofName? (s : String) : Option JobState :=
  all.find? fun j => j.name == s

/-- Whether a job in this state keeps another one for the same service from being queued. -/
def isInFlight : JobState → Bool
  | .queued | .processing | .errored => true
  | .completed | .failed => false

def unknownMessage (s : String) : String :=
  s!"unknown job state {s}"

theorem ofName?_name (j : JobState) : ofName? j.name = some j := by
  cases j <;> decide

end JobState

end RepoCatalog
