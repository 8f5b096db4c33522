import RepoCatalog.Listing.Relay
import RepoCatalog.Resync
import RepoCatalog.Sync.Single

/-!
# Streaming passes

A streaming pass brings the catalog up to date repository by repository while the listing is read,
each in a transaction of its own. What was not seen is taken from the service in the end. Failures
of single repositories are collected and stop nothing; after a failure of credentials nothing
counts as seen.
-/
namespace RepoCatalog.Syncer

open Time (Duration)

/-- What a streaming pass keeps while it reads. -/
structure Stream where
  world : World
  errors : List SyncError
  /-- The ids of the repositories that were listed. -/
  seen : List Int
  /-- Whether the catalog was changed. -/
  modified : Bool
  /-- What broke the pass off. -/
  defect : Option Defect

namespace Stream

def start (w : World) : Stream :=
  ⟨w, [], [], false, none⟩

/-- Takes note of a failure of the source, and tells whether to go on. -/
def refuse (s : Stream) (e : SyncError) : Stream × Bool :=
  let s := { s with errors := s.errors ++ [e] }
  match e.credentialFailure? with
  | some _ => ({ s with seen := [] }, false)
  | none => (s, true)

/-- Takes note of what was done for one repository, and tells whether to go on. -/
def note (s : Stream) : Except (Abort SyncError) Diff → Stream × Bool
  | .ok d =>
    let ids := (d.repos.map (·.id)).filter (· != 0)
    ({ s with
      seen := ids ++ s.seen
      modified := s.modified || !d.added.isEmpty || !d.modified.isEmpty }, true)
  | .error (.failed e) => ({ s with errors := s.errors ++ [e] }, true)
  | .error (.defect d) => ({ s with defect := some d }, false)

end Stream

/-- Takes one item of the listing. Private repositories are passed over where they are not
allowed. -/
def takeItem (y : Syncer) (svc : Service) (allowsPrivate : Bool) (s : Stream) :
    Item → Stream × Bool
  | .error e => s.refuse (.source svc.displayName e)
  | .ok repo =>
    if repo.isPrivate && !allowsPrivate then (s, true)
    else
      let (result, world) := y.sync svc repo s.world
      { s with world }.note result

/-- Reads a listing and brings the catalog up to date on each repository. -/
def readStream (y : Syncer) (svc : Service) (allowsPrivate : Bool) (items : List Item) :
    Pass Stream := fun w =>
  let reader : Reader Stream := ⟨y.takeItem svc allowsPrivate, fun s => s.world.isCancelled⟩
  let relay := (Relay.start y.settings.channelCapacity items (Stream.start w)).run reader
  let s := relay.state
  match s.defect, relay.ending? with
  | some d, _ => (.error (.defect d), s.world)
  | none, some .cancelled => (.error (.failed .cancelled), s.world)
  | none, _ => (.ok s, s.world)

/-- Takes from a service what is not in `keep`, and publishes what it lost. Tells whether it lost
anything. -/
def sweepUnseen (y : Syncer) (svc : Service) (keep : List Int) : Pass Bool := do
  let context := "sweeping unseen repos"
  let swept ← Effect.transaction (.store context)
    (Effect.store context .sweep (Store.sweep svc keep))
  if swept.isEmpty then return false
  let deleted ← Effect.store "listing swept repos" .listRepos
    (Store.listRepos { RepoQuery.all with ids := swept, withDeleted := true })
  y.publish { Diff.empty with deleted }
  return true

def stream (y : Syncer) (svc : Service) (least : Duration) : Pass Unit := do
  let allowsPrivate ← y.allowsPrivate svc
  let items ← y.itemsOf svc
  let s ← y.readStream svc allowsPrivate items
  let lost ← y.sweepUnseen svc s.seen
  let modified := s.modified || lost
  y.recordVisit svc
    (Resync.afterStream y.now svc.lastSyncAt least modified (!s.errors.isEmpty))
  Effect.ofExcept (SyncError.bundle s.errors)

end RepoCatalog.Syncer
