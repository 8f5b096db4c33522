import RepoCatalog.Chunks
import RepoCatalog.Store.Repos
import RepoCatalog.Text.Quoted

/-!
# Memberships in the store

Which service holds which repository. A membership carries the owner of its service, by which the
repositories that users add are counted.
-/
namespace RepoCatalog.Store

def putMember (service repo : Int) (cloneUrl : String) (userId : Option Int) : StoreM Unit :=
  write [.members] fun c => c.putMember ⟨repo, service⟩ ⟨cloneUrl, userId⟩

/-- The ids of the services that claims name, as far as they can be read. -/
def serviceIds (claims : List Claim) : List Int :=
  claims.filterMap Claim.serviceId?

/-- The owners of services by the id of the service. -/
def ownersOf (ids : List Int) : StoreM (Dict Int (Option Int)) :=
  read [.services] fun c =>
    .ofList ((c.services.toList.filter fun e => ids.contains e.1).map fun e => (e.1, e.2.owner?))

def putClaims (owners : Dict Int (Option Int)) (repo : Int) : List Claim → StoreM Unit
  | [] => pure ()
  | c :: cs => do
    match c.serviceId? with
    | none => invalid s!"malformed source id {Text.quoted c.urn}"
    | some service => do
      putMember service repo c.cloneUrl ((owners.get? service).getD none)
      putClaims owners repo cs

/-- Carries out edits of memberships: first what is deleted, then what is added and modified. If no
claim to be stored names a service, nothing more is done. -/
def editMembers (edits : MembershipEdits) : StoreM Unit := do
  edits.deleted.entries.forM fun (repo, claims) => do
    let services := serviceIds claims
    if services.isEmpty then return
    update [.members] fun c => c.dropMembers fun k => k.repo == repo && services.contains k.service
  let stored := edits.added.entries ++ edits.modified.entries
  let services := serviceIds (stored.flatMap (·.2))
  if services.isEmpty then return
  let owners ← ownersOf services
  stored.forM fun (repo, claims) => putClaims owners repo claims

def countUserAdded (users : List Int) : StoreM Nat :=
  read [.members] fun c =>
    let counted := c.members.entries.filter fun e =>
      e.2.userId.any fun u => users.isEmpty || users.contains u
    (Dict.ofList (counted.map fun e => (e.1.repo, ()))).size

def cloneUrlOf (svc : Service) (r : Repo) : StoreM String :=
  match r.claims.get? svc.urn with
  | some claim => pure claim.cloneUrl
  | none => invalid s!"repo {r.name} has no source for external service {svc.id}"

/-- Writes a live repository and that the service holds it. -/
def createMember (svc : Service) (r : Repo) : StoreM Repo := do
  let cloneUrl ← cloneUrlOf svc r
  let r ← saveRepo { r with deletedAt := none }
  putMember svc.id r.id cloneUrl svc.owner?
  return r

/-- Writes a repository that has an id, and that the service holds it. -/
def updateMember (svc : Service) (r : Repo) : StoreM Unit := do
  if r.id = 0 then invalid s!"repo {r.name} has no id to update"
  let cloneUrl ← cloneUrlOf svc r
  let _ ← saveRepo r
  putMember svc.id r.id cloneUrl svc.owner?

/-- How many repositories one statement takes from a service. -/
def releaseSize : Nat := 500

/-- Takes some repositories from a service. Those of them that no service holds any more become
tombstones. -/
def release (svc : Service) (now : Time.Instant) (ids : List Int) : StoreM Unit := do
  update [.members] fun c =>
    c.dropMembers fun k => k.service == svc.id && ids.contains k.repo
  update [.repos, .members] fun c =>
    c.buryRepos now fun id => ids.contains id && !c.isClaimed id

/-- Takes from a service all repositories but those in `keep`, part by part, and gives the ids of
those taken. -/
def sweep (svc : Service) (keep : List Int) : StoreM (List Int) := do
  let held ← read [.members] fun c =>
    (c.members.entries.filter fun e => e.1.service == svc.id).map (·.1.repo)
  let stale := held.filter fun id => !keep.contains id
  if stale.isEmpty then return []
  let now ← now
  (chunksOf (releaseSize - 1) stale).forM (release svc now)
  return stale

end RepoCatalog.Store
