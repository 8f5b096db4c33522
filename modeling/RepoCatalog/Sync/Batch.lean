import RepoCatalog.Chunks
import RepoCatalog.Conflict
import RepoCatalog.Listing
import RepoCatalog.Resync
import RepoCatalog.Sync.Single

/-!
# Batch passes

A batch pass first reads the whole listing of a service and then writes everything in one
transaction. Failures of the listing stop it, except failures of credentials: after one of those
the service holds nothing any more. Repositories of the site that are clearly new may be inserted
while the listing is still being read, so that they can be seen early.
-/
namespace RepoCatalog.Syncer

open Time (Duration)

/-- What a pass keeps while it reads a listing. -/
structure Reading where
  world : World
  /-- Holds back a user's service; there is none for services of the site. -/
  counter : Option Counter
  /-- The identities that need no early insertion, if there is any early insertion. -/
  known : Option (List Spec)

def countListed : ExceptT (Abort SyncError) (StateM Reading) Unit := fun r =>
  match r.counter with
  | none => (.ok (), r)
  | some counter =>
    match counter.increment with
    | .ok counter => (.ok (), { r with counter := some counter })
    | .error e => (.error (.failed (.quota e)), r)

/-- Inserts a repository early if its identity was not known. Should that fail, the batch will
write it all the same. -/
def insertEarly (y : Syncer) (svc : Service) (repo : Repo) :
    ExceptT (Abort SyncError) (StateM Reading) Unit := fun r =>
  match r.known with
  | none => (.ok (), r)
  | some known =>
    if repo.spec ∈ known then (.ok (), r)
    else
      let attempt : Pass (Except SyncError Unit) := (y.insertIfNew svc repo).attempt
      let (result, world) := attempt r.world
      (result.map fun _ => (), { r with world, known := some (repo.spec :: known) })

def listingHook (y : Syncer) (svc : Service) : Listing.Hook Reading (Abort SyncError) := fun repo => do
  countListed
  y.insertEarly svc repo

/-- The counter for a user's service, once the site has room for more. -/
def counterFor (y : Syncer) (svc : Service) : Pass (Option Counter) :=
  match svc.owner? with
  | none => pure none
  | some _ => do
    let added ← Effect.store "counting user added repos" .countUserAdded (Store.countUserAdded [])
    checkQuota (y.quota.checkSite added)
    return some (Counter.upTo y.quota.perUser)

/-- The identities that need no early insertion; services of users insert nothing early. -/
def knownFor (y : Syncer) (counter : Option Counter) : Pass (Option (List Spec)) :=
  if counter.isNone && y.settings.streamingInsert then do
    return some (← Effect.store "listing external repo specs" .listSpecs Store.listSpecs)
  else pure none

def readListing (y : Syncer) (svc : Service) (counter : Option Counter)
    (known : Option (List Spec)) (items : List Item) : Pass Listing := fun w =>
  let (result, r) := Listing.collect (y.listingHook svc) (fun r => r.world.isCancelled)
    (.failed .cancelled) y.settings.channelCapacity items ⟨w, counter, known⟩
  (result, r.world)

/-- The repositories that a listing leaves to be written, and the failure of credentials that is to
be reported in the end. Any other failure is an error. -/
def judge (svc : Service) (listing : Listing) :
    Except SyncError (List Repo × Option SyncError) :=
  if listing.errors.isEmpty then .ok (listing.repos, none)
  else
    let bundle := SyncError.multi (listing.errors.map (.source svc.displayName))
    match bundle.credentialFailure? with
    | some failure => .ok ([], some failure)
    | none => .error bundle

/-- What the catalog holds that matters to a batch: what the service holds together with the rows of
listed identities, and the rows that only share a name with a listed repository. -/
structure Stake where
  stored : List Repo
  conflicting : List Repo
deriving Inhabited

/-- Sorts rows that share a name or an identity with a listed repository. -/
def stakeOf (sourced held related : List Repo) : Stake :=
  let others := related.filter fun r => !held.any fun h => h.id == r.id
  let (same, conflicting) := others.partition fun r => sourced.any fun s => s.spec == r.spec
  ⟨held ++ same, conflicting⟩

/-- The claims on each stored identity. -/
def claimsBySpec (stored : List Repo) : Dict Spec Claims :=
  .ofList (stored.map fun r => (r.spec, r.claims))

/-- A listed repository with the claims that other services have on it. -/
def withStoredClaims (claims : Dict Spec Claims) (r : Repo) : Repo :=
  match claims.get? r.spec with
  | some stored => { r with claims := r.claims.union stored }
  | none => r

/-- What a batch will do. -/
def plan (svc : Service) (sourced : List Repo) (stake : Stake) : Diff :=
  let claims := claimsBySpec stake.stored
  let sourced := sourced.map (withStoredClaims claims)
  (Diff.between (some svc.urn) sourced stake.stored).resolveNames stake.conflicting

def isOrphaned (r : Repo) : Bool :=
  r.id != 0 && r.claims.isEmpty

def stamp (now : Time.Instant) (d : Diff) : Diff where
  added := d.added.map fun r =>
    { r with createdAt := some now, updatedAt := some now, deletedAt := none }
  deleted := d.deleted.map fun r => if isOrphaned r then { r with deletedAt := some now } else r
  modified := d.modified.map fun r => { r with updatedAt := some now, deletedAt := none }
  unmodified := d.unmodified

def lookupSize : Nat := 200

/-- The live rows that share a name or an identity with a listed repository, in the order of their
ids. -/
def listRelated (sourced : List Repo) : Pass (List Repo) := do
  let found ← (chunksOf (lookupSize - 1) sourced).mapM fun chunk =>
    Effect.store "listing conflicting repos" .listRepos (Store.listRepos
      { RepoQuery.all with names := chunk.map (·.name), specs := chunk.map (·.spec), anyOf := true })
  return (Dict.ofList (found.flatten.map fun r => (r.id, r))).values

def applyBatch (y : Syncer) (svc : Service) (sourced : List Repo) (least : Duration) :
    Pass Diff := do
  let held ← Effect.store "listing stored repos" .listRepos
    (Store.listRepos { RepoQuery.all with services := [svc.id] })
  let stake := stakeOf sourced held (← listRelated sourced)
  let previous := stake.stored ++ stake.conflicting
  let planned := plan svc sourced stake
  let stale := (MembershipEdits.ofDiff planned previous).deleted
  Effect.store "deleting stale memberships" .editMembers
    (Store.editMembers { MembershipEdits.empty with deleted := stale })
  let stamped := stamp y.now planned
  Effect.store "deleting repos" .deleteRepos
    (Store.deleteRepos ((planned.deleted.filter isOrphaned).map (·.id)))
  let modified ← Effect.store "updating repos" .putRepos (Store.putRepos stamped.modified)
  let added ← Effect.store "inserting repos" .putRepos (Store.putRepos stamped.added)
  let diff := { stamped with modified, added }
  let fresh := MembershipEdits.ofDiff diff previous
  Effect.store "upserting memberships" .editMembers
    (Store.editMembers { fresh with deleted := ∅ })
  y.recordVisit svc (Resync.afterBatch y.now svc.lastSyncAt least diff)
  if ← Effect.isCancelled then Effect.fail .cancelled
  return diff.sort

/-- A batch pass over one service. A failure of credentials is reported after everything has been
written. -/
def batch (y : Syncer) (svc : Service) (least : Duration) : Pass Unit := do
  let counter ← y.counterFor svc
  let known ← y.knownFor counter
  let items ← y.itemsOf svc
  let listing ← y.readListing svc counter known items
  let (sourced, failure) ← Effect.ofExcept (judge svc listing)
  let visible := if ← y.allowsPrivate svc then sourced else sourced.filter fun r => !r.isPrivate
  let diff ← Effect.transaction .ofStore (y.applyBatch svc visible least)
  y.publish diff
  match failure with
  | some failure => Effect.fail failure
  | none => pure ()

end RepoCatalog.Syncer
