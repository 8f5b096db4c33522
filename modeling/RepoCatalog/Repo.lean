import RepoCatalog.Dict
import RepoCatalog.Spec
import RepoCatalog.Text.LowerCase
import RepoCatalog.Time.Instant
import RepoCatalog.Urn

/-!
# Repositories

A repository as a code host lists it or as the catalog holds it: its attributes, its identity, and
the claims that services have on it. The id is zero until the catalog gives it one.
-/
namespace RepoCatalog

open Time (Instant)

/-- That a service holds a repository, and where it clones it from. -/
structure Claim where
  /-- The name of the service. -/
  urn : String
  cloneUrl : String
deriving DecidableEq, Inhabited

/-- The id of the service that holds the claim, if its name can be read. -/
def Claim.serviceId? (c : Claim) : Option Int :=
  Urn.serviceId? c.urn

abbrev Claims := Dict String Claim

structure Repo where
  id : Int
  name : String
  uri : String
  description : String
  isFork : Bool
  isArchived : Bool
  isPrivate : Bool
  spec : Spec
  claims : Claims
  createdAt : Option Instant
  updatedAt : Option Instant
  deletedAt : Option Instant
deriving DecidableEq

namespace Repo

/-- A repository of which nothing is known. -/
def blank : Repo where
  id := 0
  name := ""
  uri := ""
  description := ""
  isFork := false
  isArchived := false
  isPrivate := false
  spec := .empty
  claims := ∅
  createdAt := none
  updatedAt := none
  deletedAt := none

instance : Inhabited Repo := ⟨blank⟩

def lowerName (r : Repo) : String :=
  Text.lowerCase r.name

def order (a b : Repo) : Ordering :=
  (compare a.id b.id).then ((compare a.name b.name).then (compare a.spec b.spec))

/-- Sorts by id, then name, then identity; what agrees in all three keeps its order. -/
def sort (rs : List Repo) : List Repo :=
  rs.mergeSort fun a b => (order a b).isLE

def unclaimed (r : Repo) : Repo :=
  { r with claims := ∅ }

/-- Whether the listed attributes of `n` are not yet those of `a`. An empty identity says nothing,
and a deletion is only ever taken back. -/
def differs (a n : Repo) : Bool :=
  a.name != n.name || a.uri != n.uri || a.description != n.description || a.isFork != n.isFork ||
    a.isArchived != n.isArchived || a.isPrivate != n.isPrivate ||
    (!n.spec.isEmpty && a.spec != n.spec) || a.claims != n.claims ||
    (a.deletedAt.isSome && n.deletedAt.isNone)

/-- `a` with the listed attributes of `n`. The id and the times of creation and of the last update
stay. -/
def revised (a n : Repo) : Repo :=
  { a with
    name := n.name
    uri := n.uri
    description := n.description
    isFork := n.isFork
    isArchived := n.isArchived
    isPrivate := n.isPrivate
    spec := if n.spec.isEmpty then a.spec else n.spec
    claims := n.claims
    deletedAt := if n.deletedAt.isNone then none else a.deletedAt }

end Repo

end RepoCatalog
