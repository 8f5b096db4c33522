import RepoCatalog.Store.Memberships
import RepoCatalog.Sync.Syncer

/-!
# One repository at a time

A listed repository is matched with the catalog by name or identity. The row of its identity is
brought up to date; a row that only has its name loses it and becomes a tombstone; and if there is
no row of its identity, one is added, as far as the quotas of a user's service allow.
-/
namespace RepoCatalog.Syncer

/-- The rows that may stand for a listed repository or hold its name. A tombstone that only has the
name has nothing to do with it. -/
def related (sourced : Repo) (matching : List Repo) : List Repo :=
  matching.filter fun r => r.deletedAt.isNone || r.spec == sourced.spec

/-- The row that holds the name under another identity, and the row of the identity. -/
def tellApart (sourced : Repo) : List Repo → Except Defect (Option Repo × Option Repo)
  | [] => .ok (none, none)
  | [r] => .ok (none, some r)
  | [a, b] =>
    if a.spec ≠ sourced.spec then .ok (some a, some b)
    else if b.spec ≠ sourced.spec then .ok (some b, some a)
    else .error (.sharedIdentity sourced.spec)
  | rs => .error (.manyMatches rs.length sourced.name)

/-- The query for rows that share the name or the identity of a repository. -/
def twins (r : Repo) (withDeleted : Bool) : RepoQuery :=
  { RepoQuery.all with names := [r.name], specs := [r.spec], anyOf := true, withDeleted }

def asNew (y : Syncer) (r : Repo) : Repo :=
  { r with id := 0, createdAt := some y.now, updatedAt := some y.now, deletedAt := none }

def displace (y : Syncer) : Option Repo → Pass (List Repo)
  | none => pure []
  | some rival => do
    Effect.store "deleting conflicting repo" .deleteRepos (Store.deleteRepos [rival.id])
    return [{ rival.unclaimed with deletedAt := some y.now }]

def refresh (y : Syncer) (svc : Service) (existing sourced : Repo) : Pass Diff := do
  let sourced := { sourced with claims := sourced.claims.union existing.claims }
  if existing.differs sourced then
    let revised := { existing.revised sourced with updatedAt := some y.now }
    Effect.store "updating repo" .updateMember (Store.updateMember svc revised)
    return { Diff.empty with modified := [revised] }
  else return { Diff.empty with unmodified := [existing] }

def introduce (y : Syncer) (svc : Service) (sourced : Repo) : Pass Diff := do
  let added ← Effect.store "inserting repo" .createMember (Store.createMember svc (y.asNew sourced))
  return { Diff.empty with added := [added] }

/-- Refuses to add one more repository to a user's service past the quotas. -/
def checkRoom (y : Syncer) (svc : Service) : Pass Unit :=
  match svc.owner? with
  | none => pure ()
  | some user => do
    let count (users : List Int) : Pass Nat :=
      Effect.store "counting user added repos" .countUserAdded (Store.countUserAdded users)
    let site ← count []
    let own ← count [user]
    checkQuota (y.quota.checkInsert site own)

/-- Matches one listed repository with the catalog, inside a transaction. -/
def reconcile (y : Syncer) (svc : Service) (sourced : Repo) : Pass Diff := do
  let matching ← Effect.store "listing matching repos" .listRepos
    (Store.listRepos (twins sourced true))
  match tellApart sourced (related sourced matching) with
  | .error d => Effect.breakOff d
  | .ok (rival, existing) => do
    let deleted ← y.displace rival
    let diff ← match existing with
      | some existing => y.refresh svc existing sourced
      | none => do
        y.checkRoom svc
        y.introduce svc sourced
    return { diff with deleted }

def publishSome (y : Syncer) (d : Diff) : Pass Unit :=
  if d.isEmpty then pure () else y.publish d

/-- Brings the catalog up to date on one repository of a service. -/
def sync (y : Syncer) (svc : Service) (sourced : Repo) : Pass Diff := do
  let diff ← Effect.transaction .ofStore (y.reconcile svc sourced)
  y.publishSome diff
  return diff

/-- Adds a listed repository, inside a transaction, unless a live row has its name or identity. -/
def reconcileNew (y : Syncer) (svc : Service) (sourced : Repo) : Pass Diff := do
  let known ← Effect.store "listing matching repos" .listRepos
    (Store.listRepos (twins sourced false))
  if known.isEmpty then y.introduce svc sourced else return .empty

def insertIfNew (y : Syncer) (svc : Service) (sourced : Repo) : Pass Unit := do
  let diff ← Effect.transaction .ofStore (y.reconcileNew svc sourced)
  y.publishSome diff

def cloudDefault (serviceType : String) : Pass Service := do
  match Kind.ofServiceType? serviceType with
  | none =>
    Effect.fail (.store "resolving service kind" (.invalid s!"unknown service type {serviceType}"))
  | some kind => do
    let found ← Effect.store "listing external services" .listServices (Store.listServices
      { ServiceQuery.all with kinds := [kind], onlyCloudDefault := true, limit := some 1 })
    match found with
    | [] =>
      Effect.fail (.store "resolving cloud default service" (.noCloudDefault serviceType))
    | svc :: _ => pure svc

/-- Brings the catalog up to date on one repository that any service could hold. -/
def syncRepo (y : Syncer) (sourced : Repo) : Pass Diff := do
  let svc ← cloudDefault sourced.spec.serviceType
  y.sync svc sourced

end RepoCatalog.Syncer
