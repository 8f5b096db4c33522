import RepoCatalog.Queue.State
import RepoCatalog.Store.Row

/-!
# Jobs

A job asks for one pass over one service.
-/
namespace RepoCatalog

open Time (Instant)

structure Job where
  id : Int
  state : JobState
  service : Int
  failureMessage : Option String
  numResets : Int
  numFailures : Int
  queuedAt : Instant
  startedAt : Option Instant
  finishedAt : Option Instant
  /-- When the service is due again, where that was looked up. -/
  nextSyncAt : Option Instant
deriving DecidableEq, Inhabited

namespace JobRow

/-- A job that has just been queued. -/
def fresh (service : Int) (now : Instant) : JobRow where
  state := .known .queued
  failureMessage := none
  queuedAt := now
  startedAt := none
  finishedAt := none
  processAfter := none
  lastHeartbeatAt := none
  numResets := 0
  numFailures := 0
  service := service

def toJob? (row : JobRow) (id : Int) : Except String Job :=
  match row.state with
  | .unknown text => .error text
  | .known state => .ok {
      id := id
      state := state
      service := row.service
      failureMessage := row.failureMessage
      numResets := row.numResets
      numFailures := row.numFailures
      queuedAt := row.queuedAt
      startedAt := row.startedAt
      finishedAt := row.finishedAt
      nextSyncAt := none }

def isReady (row : JobRow) (now : Instant) : Bool :=
  row.state.satisfies (fun s => s == .queued || s == .errored) &&
    row.processAfter.all fun t => !StoredTime.before now t

/-- Whether the job is being processed and gave no sign of life since the cutoff. -/
def isStalled (row : JobRow) (cutoff : Instant) : Bool :=
  row.state == .known .processing && row.lastHeartbeatAt.all fun t => StoredTime.before t cutoff

/-- Whether the job was finished before the cutoff and may be forgotten. A job that has failed is
kept. -/
def isOld (row : JobRow) (cutoff : Instant) : Bool :=
  row.state.satisfies (fun s => s == .completed || s == .errored) &&
    row.finishedAt.any fun t => StoredTime.before t cutoff

end JobRow

end RepoCatalog
