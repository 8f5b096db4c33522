import RepoCatalog.Queue
import RepoCatalog.Sync

/-!
# Working off the queue

A worker claims one job after the other, makes the pass that it asks for, and reports how it ended.
Meanwhile services that are due are queued, stalled jobs are taken from their workers, and old jobs
are forgotten.
-/
namespace RepoCatalog

open Time (Duration Instant)

/-- An effect that fails as the store does. -/
abbrev Errand := Effect StoreError

namespace Worker

/-- Breaks off where a length of time cannot be held. -/
def lengthOf {ε : Type} : Option Duration → Effect ε Duration
  | some d => pure d
  | none => Effect.breakOff .durationOutOfBounds

/-- Makes the pass that a job asks for. -/
def handle (y : Syncer) (job : Job) : Pass Unit := do
  let least ← lengthOf y.settings.leastInterval?
  y.syncService job.service least

/-- Whether a pass ended with nothing but that it was told to stop. -/
def hasStopped : SyncError → Bool
  | .cancelled => true
  | _ => false

/-- Reports how a job ended. One that was cancelled together with its worker stays as it is, until
it is found to have stalled. -/
def report (budget : Nat) (job : Job) : Except SyncError Unit → Errand Unit
  | .ok _ => Effect.ofStore (Queue.complete job.id)
  | .error e => do
    if hasStopped e && (← Effect.isCancelled) then return
    let _ ← Effect.ofStore (Queue.fail budget job.id e.message)

/-- Works off the next job, and tells whether there was one. -/
def processNext (y : Syncer) (settings : WorkerSettings) : Errand Bool := do
  match ← Effect.ofStore Queue.dequeue with
  | none => return false
  | some job => do
    report settings.maxNumRetries job (← (handle y job).attempt)
    return true

/-- A number of seconds in the settings as a length of time. -/
def secondsOf (n : Nat) : Errand Duration :=
  lengthOf (Duration.ofSeconds? (SyncSettings.signedSeconds n))

def timeAgo (age : Duration) : Errand Instant := do
  let now ← Effect.ofStore Store.now
  match now.sub? age with
  | some t => pure t
  | none => Effect.breakOff .timeBeforeStart

/-- Takes jobs from workers that gave no sign of life for `age`. Those that were reset `most` times
already fail. -/
def reclaim (age : Duration) (most : Nat) : Errand Queue.ResetCounts := do
  let now ← Effect.ofStore Store.now
  let cutoff ← timeAgo age
  Effect.ofStore (Queue.resetStalled now cutoff most)

/-- Forgets jobs that were finished longer than `retention` ago. -/
def forget (retention : Duration) : Errand Nat := do
  let cutoff ← timeAgo retention
  Effect.ofStore (Queue.purge cutoff)

def resetterTick (settings : WorkerSettings) : Errand Unit := do
  let age ← secondsOf settings.stalledMaxAge
  let _ ← reclaim age settings.maxNumResets

def cleanerTick (settings : WorkerSettings) : Errand Nat := do
  let retention ← secondsOf settings.jobRetention
  forget retention

/-- One round of the scheduler: how many jobs it queued, unless services are not queued by
themselves. -/
def schedulerTick (settings : SyncSettings) : Errand (Option Nat) :=
  if settings.disableAutoSyncs then pure none
  else some <$> Effect.ofStore (Queue.enqueueDue settings.cloudMode)

def finishedJobs (w : World) : Nat :=
  w.store.catalog.jobs.count fun _ row =>
    row.state.satisfies fun s => s == .completed || s == .failed

/-- A round of upkeep that is due at once if no time lies between two of them. Its failure stops
nothing. -/
def atOnce {α : Type} (interval : Nat) (tick : Errand α) : Errand Unit :=
  if interval = 0 then tick.ignore else pure ()

def upkeep (y : Syncer) (settings : WorkerSettings) : Errand Unit := do
  atOnce y.settings.enqueueInterval (schedulerTick y.settings)
  atOnce settings.resetterInterval (resetterTick settings)
  if settings.cleanupOldJobs then atOnce settings.cleanupInterval (cleanerTick settings)

/-- Works off jobs until `enough` have come to an end, there are no more, or the worker is told to
stop; makes at most `rounds` rounds. -/
def workOff (y : Syncer) (settings : WorkerSettings) (enough : Nat) : Nat → Errand Unit
  | 0 => pure ()
  | rounds + 1 => do
    upkeep y settings
    let w ← getThe World
    if w.isCancelled || enough ≤ finishedJobs w then return
    match ← (processNext y settings).attempt with
    | .ok true => workOff y settings enough rounds
    | _ => pure ()

/-- Publishes what is stored and then works off jobs. Tells whether `enough` came to an end. -/
def run (y : Syncer) (settings : WorkerSettings) (enough rounds : Nat) : Errand Bool := do
  y.publishStored.ignore
  workOff y settings enough rounds
  return enough ≤ finishedJobs (← getThe World)

end Worker

end RepoCatalog
