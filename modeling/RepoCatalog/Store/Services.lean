import RepoCatalog.Store

/-!
# Services and users in the store
-/
namespace RepoCatalog

/-- Which services to list. An empty list of ids or kinds asks for all. -/
structure ServiceQuery where
  ids : List Int
  kinds : List Kind
  onlyCloudDefault : Bool
  limit : Option Nat
deriving Inhabited

namespace ServiceQuery

def all : ServiceQuery :=
  ⟨[], [], false, none⟩

/-- Whether a row that is not deleted answers the query. Kinds are compared by their exact name. -/
def accepts (q : ServiceQuery) (id : Int) (row : ServiceRow) : Bool :=
  row.deletedAt.isNone && (q.ids.isEmpty || q.ids.contains id) &&
    (q.kinds.isEmpty || q.kinds.any fun k => k.name == row.kindName) &&
    (!q.onlyCloudDefault || row.cloudDefault)

end ServiceQuery

namespace Store

/-- The service in a row, or why it cannot be read. -/
def serviceOfRow (id : Int) (row : ServiceRow) : Except StoreError Service :=
  match row.toService? id with
  | some svc => .ok svc
  | none => .error (.invalid (Kind.unknownMessage row.kindName))

def listServices (q : ServiceQuery) : StoreM (List Service) := do
  let rows ← read [.services] fun c => c.services.toList.filter fun e => q.accepts e.1 e.2
  let rows := match q.limit with
    | some limit => rows.take limit
    | none => rows
  rows.mapM fun e => ExceptT.mk (pure (serviceOfRow e.1 e.2))

/-- The service of an id, unless it is deleted. -/
def getService (id : Int) : StoreM Service := do
  let row ← read [.services] fun c => (c.services.get? id).filter fun row => row.deletedAt.isNone
  match row with
  | some row => ExceptT.mk (pure (serviceOfRow id row))
  | none => throw (.serviceNotFound id)

/-- Writes a service, under a new id if it has none yet, and gives it back as it was written. The
whole row is replaced. -/
def putService (svc : Service) : StoreM Service := do
  let now ← now
  let createdAt := svc.createdAt.getD now
  let row : ServiceRow := {
    kindName := svc.kind.name
    displayName := svc.displayName
    config := svc.config
    namespaceUserId := svc.namespaceUserId
    cloudDefault := svc.cloudDefault
    lastSyncAt := svc.lastSyncAt
    nextSyncAt := svc.nextSyncAt
    createdAt := createdAt
    updatedAt := now
    deletedAt := svc.deletedAt }
  let id ←
    if svc.id = 0 then write [.services] fun c => c.addService row
    else do
      write [.services] fun c => c.changeService svc.id fun _ => row
      pure svc.id
  return { svc with id := id, createdAt := some createdAt, updatedAt := some now }

/-- Writes single columns of a service. -/
def patchService (id : Int) (kindName : Option String) (deletedAt : Option Time.Instant) :
    StoreM Unit :=
  write [.services] fun c => c.changeService id fun row =>
    { row with
      kindName := kindName.getD row.kindName
      deletedAt := deletedAt <|> row.deletedAt }

def addUser (user : User) : StoreM Int :=
  write [.users] fun c => c.addUser user

/-- Whether a user's services may hold private repositories. A user who does not exist allows
nothing. -/
def allowsPrivateCode (user : Int) : StoreM Bool :=
  read [.users] fun c => (c.users.get? user).any (·.allowsPrivate)

/-- Applies all steps of the schema, or the next few. -/
def upgrade (steps : Option Nat) : StoreM Unit :=
  update [] fun c => c.upgrade steps

/-- Undoes all steps of the schema, or the last few. -/
def downgrade (steps : Option Nat) : StoreM Unit :=
  update [] fun c => c.downgrade steps

end Store

end RepoCatalog
