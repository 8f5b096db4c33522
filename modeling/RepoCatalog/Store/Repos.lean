import RepoCatalog.Store
import RepoCatalog.Membership

/-!
# Repositories in the store

A repository is read together with the claims of all services that hold it. One that is written
without an id takes over the row of its identity if there is one, even a tombstone.
-/
namespace RepoCatalog

/-- Which repositories to list. A list that is empty asks for nothing; of the others all must be
answered, or any. -/
structure RepoQuery where
  ids : List Int
  names : List String
  specs : List Spec
  services : List Int
  /-- Whether it is enough to answer one list. -/
  anyOf : Bool
  withDeleted : Bool
deriving Inhabited

namespace RepoQuery

def all : RepoQuery :=
  ⟨[], [], [], [], false, false⟩

def isUnfiltered (q : RepoQuery) : Bool :=
  q.ids.isEmpty && q.names.isEmpty && q.specs.isEmpty && q.services.isEmpty

/-- What the lists that are not empty say of a row, one answer each. A name is asked for in full
lower case and looked for among the stored names of live rows, which lose the case of basic letters
only. -/
def answers (q : RepoQuery) (held : List Int) (wanted : List String) (id : Int) (row : RepoRow) :
    List Bool :=
  let answer (isAsked : Bool) (b : Bool) : List Bool := if isAsked then [b] else []
  answer (!q.ids.isEmpty) (q.ids.contains id) ++
    answer (!q.names.isEmpty) (row.isLive && wanted.contains row.nameKey) ++
    answer (!q.specs.isEmpty) (q.specs.contains row.spec) ++
    answer (!q.services.isEmpty) (held.contains id)

def select (q : RepoQuery) (c : Catalog) : List (Int × RepoRow) :=
  let held := (c.members.entries.filter fun e => q.services.contains e.1.service).map (·.1.repo)
  let wanted := q.names.map Text.lowerCase
  c.repos.toList.filter fun (id, row) =>
    let answers := q.answers held wanted id row
    (q.withDeleted || row.isLive) &&
      (answers.isEmpty || if q.anyOf then answers.any (·) else answers.all (·))

def tables (q : RepoQuery) : List TableName :=
  if q.services.isEmpty then [.repos] else [.repos, .members]

end RepoQuery

namespace Store

/-- The kinds of the services with the given ids, by id. A kind that nobody knows is an error. -/
def kindsOf (ids : List Int) : StoreM (Dict Int Kind) := do
  let rows ← read [.services] fun c => c.services.toList.filter fun e => ids.contains e.1
  let kinds ← rows.mapM fun (id, row) =>
    match Kind.ofName? row.kindName with
    | some kind => pure (id, kind)
    | none => invalid (Kind.unknownMessage row.kindName)
  return .ofList kinds

/-- The claim that a membership amounts to, if its service is known. -/
def claimOf (kinds : Dict Int Kind) (key : MemberKey) (m : Membership) : Option Claim :=
  (kinds.get? key.service).map fun kind => ⟨Urn.format kind key.service, m.cloneUrl⟩

def claimsOn (kinds : Dict Int Kind) (members : List (MemberKey × Membership)) (repo : Int) :
    Claims :=
  .ofList ((members.filter fun e => e.1.repo == repo).filterMap fun e =>
    (claimOf kinds e.1 e.2).map fun c => (c.urn, c))

def withClaims (rows : List (Int × RepoRow)) : StoreM (List Repo) := do
  if rows.isEmpty then return []
  let ids := rows.map (·.1)
  let members ← read [.members] fun c =>
    c.members.entries.filter fun e => ids.contains e.1.repo
  let kinds ← if members.isEmpty then pure ∅ else kindsOf (members.map (·.1.service))
  return rows.map fun (id, row) => row.toRepo id (claimsOn kinds members id)

/-- The repositories that answer a query, in the order of their ids. -/
def listRepos (q : RepoQuery) : StoreM (List Repo) := do
  withClaims (← read q.tables q.select)

def listSpecs : StoreM (List Spec) :=
  read [.repos] fun c =>
    let live := c.repos.toList.filter fun e => e.2.isLive
    (Dict.ofList (live.map fun e => (e.2.spec, ()))).keys

/-- The row that a repository without an id takes over. An empty identity finds none. -/
def findBySpec (spec : Spec) : StoreM (Option (Int × RepoRow)) :=
  if spec.isEmpty then pure none
  else read [.repos] fun c => c.repos.toList.find? fun e => e.2.spec == spec

/-- Writes a repository and gives it back as it was written. Its claims are not written. -/
def saveRepo (r : Repo) : StoreM Repo := do
  let now ← now
  let r ←
    if r.id = 0 then do
      match ← findBySpec r.spec with
      | some (id, row) => pure { r with id := id, createdAt := r.createdAt <|> some row.createdAt }
      | none => pure r
    else pure r
  let createdAt := r.createdAt.getD now
  let updatedAt := r.updatedAt.getD now
  let row := RepoRow.ofRepo r createdAt updatedAt
  let id ←
    if r.id = 0 then write [.repos] fun c => c.addRepo row
    else do
      write [.repos] fun c => c.replaceRepo r.id row
      pure r.id
  return { r with id := id, createdAt := some createdAt, updatedAt := some updatedAt }

def putRepos (rs : List Repo) : StoreM (List Repo) :=
  rs.mapM saveRepo

/-- Drops all memberships of repositories and makes tombstones of them. -/
def deleteRepos (ids : List Int) : StoreM Unit := do
  let now ← now
  if ids.isEmpty then return
  update [.members] fun c => c.dropMembers fun k => ids.contains k.repo
  update [.repos] fun c => c.buryRepos now fun id => ids.contains id

end Store

end RepoCatalog
