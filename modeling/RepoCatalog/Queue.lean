import RepoCatalog.Queue.Job
import RepoCatalog.Store.Services

/-!
# The queue

Jobs wait in the order in which they were queued. A worker claims one, tells that it is alive, and
reports how it ended. A job that fails is tried again until it has failed more often than the
budget of retries allows. One whose worker falls silent is queued again, or fails if that has
happened too often.
-/
namespace RepoCatalog.Queue

open Time Store

/-- Whether a service is due for a pass and has no job in flight. In the cloud only services of
users and cloud defaults are due by themselves. -/
def isDue (c : Catalog) (isCloud : Bool) (now : Instant) (id : Int) (row : ServiceRow) : Bool :=
  row.deletedAt.isNone && row.nextSyncAt.all (fun t => !StoredTime.before now t) &&
    !(c.jobs.toList.any fun e => e.2.service == id && e.2.state.satisfies JobState.isInFlight) &&
    (!isCloud || row.owner?.isSome || row.cloudDefault)

def atomically {α : Type} (body : StoreM α) : StoreM α := do
  begin
  tryCatchThe StoreError
    (do
      let a ← body
      commit
      return a)
    (fun e => do
      rollback
      throw e)

def enqueueDue (isCloud : Bool) : StoreM Nat := do
  let now ← now
  atomically do
    let due ← read [.services, .jobs] fun c =>
      (c.services.toList.filter fun e => isDue c isCloud now e.1 e.2).map (·.1)
    due.forM fun id => do
      let _ ← write [.jobs] fun c => c.addJob (.fresh id now)
    return due.length

/-- Queues a job for one service, unless one is queued or being processed already. -/
def enqueue (service : Int) : StoreM Bool :=
  atomically do
    let isBusy ← read [.jobs] fun c => c.jobs.toList.any fun e =>
      e.2.service == service && e.2.state.satisfies fun s => s == .queued || s == .processing
    if isBusy then return false
    let now ← now
    let _ ← write [.jobs] fun c => c.addJob (.fresh service now)
    return true

/-- Whether the first of two jobs is claimed before the second. -/
def precedes (a b : Int × JobRow) : Bool :=
  StoredTime.before a.2.queuedAt b.2.queuedAt ||
    (!StoredTime.before b.2.queuedAt a.2.queuedAt && a.1 < b.1)

def next? (c : Catalog) (now : Instant) : Option (Int × JobRow) :=
  (c.jobs.toList.filter fun e => e.2.isReady now).foldl (fun best e =>
    match best with
    | none => some e
    | some b => if precedes e b then some e else some b) none

def jobOfRow (id : Int) (row : JobRow) : StoreM Job :=
  match row.toJob? id with
  | .ok job => pure job
  | .error text => invalid (JobState.unknownMessage text)

def changeJobs (p : Int → JobRow → Bool) (f : JobRow → JobRow) : StoreM Nat :=
  write [.jobs] fun c => .ok (c.changeJobs p f)

/-- A worker that wants a job reads the clock and looks which job is next. -/
def look : StoreM (Instant × Option (Int × JobRow)) := do
  let now ← now
  let next ← read [.jobs] fun c => next? c now
  return (now, next)

def claimedRow (now : Instant) (row : JobRow) : JobRow :=
  { row with
    state := .known .processing
    startedAt := some now
    lastHeartbeatAt := some now
    finishedAt := none }

/-- Claims the job that a worker has seen, unless its state is another one by now, and tells whether
it was claimed. -/
def claim (now : Instant) (id : Int) (seen : JobRow) : StoreM Bool := do
  let claimed ← changeJobs (fun k row => k == id && row.state == seen.state) (claimedRow now)
  return claimed != 0

/-- The claimed job as it was seen, but for its state and start, with the time at which its service
is due again. -/
def handOut (now : Instant) (id : Int) (seen : JobRow) : StoreM Job := do
  let job ← jobOfRow id seen
  let nextSyncAt ← read [.services] fun c => (c.services.get? job.service).bind (·.nextSyncAt)
  return { job with state := .processing, startedAt := some now, nextSyncAt }

/-- Claims the next job, if there is one. A worker that comes too late for the job that it has seen
looks for another one, until it has looked `attempts` times. -/
def dequeueWithin : Nat → StoreM (Option Job)
  | 0 => return none
  | attempts + 1 => do
    let (now, next) ← look
    match next with
    | none => return none
    | some (id, seen) =>
      if ← claim now id seen then return some (← handOut now id seen)
      dequeueWithin attempts

def maxClaimAttempts : Nat := 3

def dequeue : StoreM (Option Job) :=
  dequeueWithin maxClaimAttempts

/-- A worker tells that it is alive. Only a job that is being processed takes notice. -/
def heartbeat (id : Int) : StoreM Unit := do
  let now ← now
  let _ ← changeJobs (fun k row => k == id && row.state == .known .processing) fun row =>
    { row with lastHeartbeatAt := some now }

def complete (id : Int) : StoreM Unit := do
  let now ← now
  let _ ← changeJobs (fun k _ => k == id) fun row =>
    { row with state := .known .completed, finishedAt := some now }

/-- Enters one failure more than the job had when it was seen, and gives the state that the job is
in by that. -/
def enterFailure (budget : Nat) (id : Int) (seen : JobRow) (message : String) : StoreM JobState := do
  let failures := seen.numFailures + 1
  let state := if (budget : Int) < failures then JobState.failed else .errored
  let now ← now
  write [.jobs] fun c => c.changeJob id fun row =>
    { row with
      state := .known state
      numFailures := failures
      failureMessage := some message
      finishedAt := some now }
  return state

/-- A worker reports a failure. The job has failed for good once its failures exceed the budget. -/
def fail (budget : Nat) (id : Int) (message : String) : StoreM JobState := do
  match ← read [.jobs] fun c => c.jobs.get? id with
  | none => invalid s!"sync job {id} not found"
  | some seen => enterFailure budget id seen message

/-- How many stalled jobs were queued again, and how many failed. -/
structure ResetCounts where
  reset : Nat
  failed : Nat
deriving DecidableEq, Inhabited

def diedMessage : String :=
  "job processor died while handling this message too many times"

/-- A number of resets as the signed 32-bit number of the same bits. -/
def signedResets (n : Nat) : Int :=
  (Int.ofNat n).bmod (Nat.pow 2 32)

def diedRow (now : Instant) (row : JobRow) : JobRow :=
  { row with
    state := .known .failed
    finishedAt := some now
    failureMessage := some diedMessage }

/-- Fails the stalled jobs that were reset `most` times already, and gives their number. -/
def giveUpStalled (now cutoff : Instant) (most : Int) : StoreM Nat :=
  changeJobs (fun _ row => row.isStalled cutoff && most ≤ row.numResets) (diedRow now)

def requeuedRow (row : JobRow) : JobRow :=
  { row with state := .known .queued, startedAt := none, numResets := row.numResets + 1 }

/-- Queues the stalled jobs again that were reset less than `most` times, and gives their number. -/
def requeueStalled (cutoff : Instant) (most : Int) : StoreM Nat :=
  changeJobs (fun _ row => row.isStalled cutoff && row.numResets < most) requeuedRow

/-- Takes stalled jobs from their workers: those whose worker gave no sign of life for `age` before
the second reading of the clock. One that was reset `most` times already fails. -/
def resetStalled (now cutoff : Instant) (most : Nat) : StoreM ResetCounts := do
  let most := signedResets most
  let failed ← giveUpStalled now cutoff most
  let reset ← requeueStalled cutoff most
  return ⟨reset, failed⟩

/-- Forgets jobs that were finished before the cutoff, and gives their number. -/
def purge (cutoff : Instant) : StoreM Nat :=
  write [.jobs] fun c => .ok (c.dropJobs fun _ row => row.isOld cutoff)

def find (id : Int) : StoreM (Option Job) := do
  match ← read [.jobs] fun c => c.jobs.get? id with
  | none => return none
  | some row => return some (← jobOfRow id row)

def jobsOf (service : Int) : StoreM (List Job) := do
  let rows ← read [.jobs] fun c => c.jobs.toList.filter fun e => e.2.service == service
  rows.mapM fun e => jobOfRow e.1 e.2

end RepoCatalog.Queue
