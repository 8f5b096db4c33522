import RepoCatalog.Json.Value
import RepoCatalog.Kind
import RepoCatalog.Time.Instant
import RepoCatalog.Urn

/-!
# Services

A service is a configured connection to a code host. One that belongs to a user is trusted less: it
is held to quotas, and private repositories need the user's permission. All others belong to the
site.
-/
namespace RepoCatalog

open Time (Instant)

/-- A configured connection to a code host. -/
structure Service where
  id : Int
  kind : Kind
  displayName : String
  /-- Settings that only the code host's own listing reads. -/
  config : Json.Value
  namespaceUserId : Option Int
  cloudDefault : Bool
  lastSyncAt : Option Instant
  nextSyncAt : Option Instant
  createdAt : Option Instant
  updatedAt : Option Instant
  deletedAt : Option Instant
deriving Inhabited

namespace Service

def fresh (kind : Kind) (displayName : String) : Service where
  id := 0
  kind := kind
  displayName := displayName
  config := .object []
  namespaceUserId := none
  cloudDefault := false
  lastSyncAt := none
  nextSyncAt := none
  createdAt := none
  updatedAt := none
  deletedAt := none

/-- The name by which repositories refer to the service. -/
def urn (s : Service) : String :=
  Urn.format s.kind s.id

/-- The user who owns the service. An id that is not positive owns nothing. -/
def owner? (s : Service) : Option Int :=
  s.namespaceUserId.filter (0 < ·)

def isUserOwned (s : Service) : Bool :=
  s.owner?.isSome

end Service

end RepoCatalog
