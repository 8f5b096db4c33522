import RepoCatalog.Diff
import RepoCatalog.Listing.Relay
import RepoCatalog.Store
import RepoCatalog.Sync.Error

/-!
# The world of a pass

A pass acts on a store whose operations may fail, may be told at any time to stop, and tells others
of what it did by publishing differences. Faults say beforehand which operations will fail and
during which the pass will be cancelled.
-/
namespace RepoCatalog

inductive StoreOperation where
  | begin
  | commit
  | rollback
  | listRepos
  | putRepos
  | deleteRepos
  | listSpecs
  | listServices
  | getService
  | putService
  | editMembers
  | countUserAdded
  | allowsPrivateCode
  | createMember
  | updateMember
  | sweep
deriving DecidableEq, Inhabited

/-- A fault strikes once, when an operation has been let through `skip` times: the operation fails
with the error without running, or it runs and the pass is cancelled. -/
structure Fault where
  operation : StoreOperation
  skip : Nat
  error : Option StoreError
deriving DecidableEq, Inhabited

namespace Fault

/-- What is left of the faults when an operation is called, and the fault that strikes. Of several
faults for one operation the first counts. -/
def strike (operation : StoreOperation) : List Fault → List Fault × Option Fault
  | [] => ([], none)
  | f :: fs =>
    if f.operation = operation then
      if f.skip = 0 then (fs, some f) else ({ f with skip := f.skip - 1 } :: fs, none)
    else
      let (fs, struck) := strike operation fs
      (f :: fs, struck)

end Fault

/-- What a pass acts on. -/
structure World where
  store : Store
  /-- Faults that have not struck yet. -/
  faults : List Fault
  /-- Whether the pass has been told to stop. -/
  isCancelled : Bool
  /-- The differences that were published, in order. -/
  published : List Diff
deriving Inhabited

/-- Something that cannot happen while the catalog keeps its rules and settings keep their bounds.
It breaks off whatever runs. -/
inductive Defect where
  | sharedIdentity (spec : Spec)
  | manyMatches (count : Nat) (name : String)
  | durationOutOfBounds
  | timeAfterEnd
  | timeBeforeStart
  | channelTooWide
deriving DecidableEq, Inhabited

def Defect.message : Defect → String
  | .sharedIdentity spec =>
    s!"internal error: entered unreachable code: two rows share identity {spec.display}"
  | .manyMatches count name =>
    s!"internal error: entered unreachable code: {count} rows match repo {name} by name or identity"
  | .durationOutOfBounds => "TimeDelta::seconds out of bounds"
  | .timeAfterEnd => "`DateTime + TimeDelta` overflowed"
  | .timeBeforeStart => "`DateTime - TimeDelta` overflowed"
  | .channelTooWide =>
    s!"a semaphore may not have more than MAX_PERMITS permits ({Relay.widest})"

/-- Why an effect ends without a result. -/
inductive Abort (ε : Type) where
  | failed (error : ε)
  | defect (defect : Defect)
deriving Inhabited

abbrev Effect (ε : Type) := ExceptT (Abort ε) (StateM World)

abbrev Pass := Effect SyncError

namespace Effect

variable {α ε δ : Type}

def fail (e : ε) : Effect ε α :=
  throw (.failed e)

def breakOff (d : Defect) : Effect ε α :=
  throw (.defect d)

/-- Runs a store step on the world's store. -/
def ofStore (step : StoreM α) : Effect StoreError α := fun w =>
  match step w.store with
  | (.ok a, s) => (.ok a, { w with store := s })
  | (.error e, s) => (.error (.failed e), { w with store := s })

/-- Calls an operation of the store, which a fault may strike. -/
def call (operation : StoreOperation) (step : StoreM α) : Effect StoreError α := fun w =>
  let (faults, struck) := Fault.strike operation w.faults
  let w := { w with faults := faults }
  match struck with
  | none => ofStore step w
  | some fault =>
    match fault.error with
    | some e => (.error (.failed e), w)
    | none => ofStore step { w with isCancelled := true }

def mapError (f : ε → δ) (effect : Effect ε α) : Effect δ α := fun w =>
  match effect w with
  | (.ok a, w) => (.ok a, w)
  | (.error (.failed e), w) => (.error (.failed (f e)), w)
  | (.error (.defect d), w) => (.error (.defect d), w)

/-- The outcome as a value; only a defect still breaks off. -/
def attempt (effect : Effect ε α) : Effect δ (Except ε α) := fun w =>
  match effect w with
  | (.ok a, w) => (.ok (.ok a), w)
  | (.error (.failed e), w) => (.ok (.error e), w)
  | (.error (.defect d), w) => (.error (.defect d), w)

/-- The effect without its outcome; only a defect still breaks off. -/
def ignore (effect : Effect ε α) : Effect δ Unit := do
  let _ ← (effect.attempt : Effect δ (Except ε α))

def ofExcept (r : Except ε α) : Effect ε α :=
  match r with
  | .ok a => pure a
  | .error e => fail e

/-- Calls an operation of the store; `context` says what for. -/
def store (context : String) (operation : StoreOperation) (step : StoreM α) : Pass α :=
  (call operation step).mapError (.store context)

/-- Leaves the innermost transaction without its changes. -/
def abandon (w : World) : World :=
  { w with store := w.store.undo }

/-- Ends the innermost transaction with its changes; if that fails they are lost. -/
def commit : Effect StoreError Unit := fun w =>
  match call .commit Store.commit w with
  | (.error e, w) => (.error e, abandon w)
  | r => r

/-- Ends the innermost transaction without its changes; they are lost even if that fails. -/
def rollback : Effect StoreError Unit := fun w =>
  match call .rollback Store.rollback w with
  | (.error e, w) => (.error e, abandon w)
  | r => r

/-- A body whose defect leaves the innermost transaction without its changes. -/
def guarded (body : Effect ε α) : Effect ε α := fun w =>
  match body w with
  | (.error (.defect d), w) => (.error (.defect d), abandon w)
  | r => r

/-- Runs a body in a transaction of its own. `lift` makes an error of a failed commit. -/
def transaction (lift : StoreError → SyncError) (body : Pass α) : Pass α := do
  store "opening transaction" .begin Store.begin
  let outcome ← body.guarded.attempt
  match outcome with
  | .ok a => do
    commit.mapError lift
    return a
  | .error e => do
    rollback.ignore
    fail e

/-- Whether the pass has been told to stop. -/
def isCancelled : Effect ε Bool := fun w =>
  (.ok w.isCancelled, w)

end Effect

end RepoCatalog
