import RepoCatalog.Queue.State
import RepoCatalog.Repo
import RepoCatalog.Service
import RepoCatalog.Time.Timestamp

/-!
# Rows

What the tables hold of users, services, repositories, memberships and jobs. The id of a row is its
key and no part of it. Times are stored as text and compare as text.
-/
namespace RepoCatalog

open Time (Instant)

structure User where
  name : String
  /-- Whether the user's services may hold private repositories. -/
  allowsPrivate : Bool
deriving DecidableEq, Inhabited

/-- A service as it is stored. The name of its kind may be one that nobody knows. -/
structure ServiceRow where
  kindName : String
  displayName : String
  config : Json.Value
  namespaceUserId : Option Int
  cloudDefault : Bool
  lastSyncAt : Option Instant
  nextSyncAt : Option Instant
  createdAt : Instant
  updatedAt : Instant
  deletedAt : Option Instant
deriving Inhabited

/-- The service in a row, if its kind is known. -/
def ServiceRow.toService? (row : ServiceRow) (id : Int) : Option Service :=
  (Kind.ofName? row.kindName).map fun kind => {
    id := id
    kind := kind
    displayName := row.displayName
    config := row.config
    namespaceUserId := row.namespaceUserId
    cloudDefault := row.cloudDefault
    lastSyncAt := row.lastSyncAt
    nextSyncAt := row.nextSyncAt
    createdAt := some row.createdAt
    updatedAt := some row.updatedAt
    deletedAt := row.deletedAt }

def ServiceRow.owner? (row : ServiceRow) : Option Int :=
  row.namespaceUserId.filter (0 < ·)

/-- A repository as it is stored, without its claims. One with a time of deletion is a tombstone;
all others are live. -/
structure RepoRow where
  name : String
  uri : String
  description : String
  isFork : Bool
  isArchived : Bool
  isPrivate : Bool
  spec : Spec
  createdAt : Instant
  updatedAt : Instant
  deletedAt : Option Instant
deriving DecidableEq, Inhabited

namespace RepoRow

def isLive (row : RepoRow) : Bool :=
  row.deletedAt.isNone

/-- The name by which live rows are told apart. Only basic letters lose their case. -/
def nameKey (row : RepoRow) : String :=
  Text.Ascii.lower row.name

def toRepo (row : RepoRow) (id : Int) (claims : Claims) : Repo where
  id := id
  name := row.name
  uri := row.uri
  description := row.description
  isFork := row.isFork
  isArchived := row.isArchived
  isPrivate := row.isPrivate
  spec := row.spec
  claims := claims
  createdAt := some row.createdAt
  updatedAt := some row.updatedAt
  deletedAt := row.deletedAt

/-- The row of a repository with given times of creation and of the last update. -/
def ofRepo (r : Repo) (createdAt updatedAt : Instant) : RepoRow where
  name := r.name
  uri := r.uri
  description := r.description
  isFork := r.isFork
  isArchived := r.isArchived
  isPrivate := r.isPrivate
  spec := r.spec
  createdAt := createdAt
  updatedAt := updatedAt
  deletedAt := r.deletedAt

end RepoRow

/-- Which repository which service holds. -/
structure MemberKey where
  repo : Int
  service : Int
deriving DecidableEq, Inhabited

namespace MemberKey

instance : Ord MemberKey where
  compare a b := (compare a.repo b.repo).then (compare a.service b.service)

theorem compare_def (a b : MemberKey) :
    compare a b = (compare a.repo b.repo).then (compare a.service b.service) :=
  rfl

instance : Std.TransOrd MemberKey :=
  inferInstanceAs <| Std.TransCmp <| compareLex (compareOn repo) (compareOn service)

instance : Std.LawfulEqOrd MemberKey where
  compare_self := Std.ReflCmp.compare_self
  eq_of_compare {a b} h := by
    simp only [compare_def, Ordering.then_eq_eq, Std.LawfulEqCmp.compare_eq_iff_eq] at h
    cases a
    cases b
    simp_all

end MemberKey

/-- What is stored of a membership: where the service clones the repository from, and the user who
owns the service. -/
structure Membership where
  cloneUrl : String
  userId : Option Int
deriving DecidableEq, Inhabited

/-- The state of a job as it is stored, which may be one that nobody knows. -/
inductive StoredState where
  | known (state : JobState)
  | unknown (text : String)
deriving DecidableEq, Inhabited

namespace StoredState

def ofText (s : String) : StoredState :=
  match JobState.ofName? s with
  | some state => .known state
  | none => .unknown s

def text : StoredState → String
  | .known state => state.name
  | .unknown s => s

def satisfies (p : JobState → Bool) : StoredState → Bool
  | .known state => p state
  | .unknown _ => false

end StoredState

structure JobRow where
  state : StoredState
  failureMessage : Option String
  queuedAt : Instant
  startedAt : Option Instant
  finishedAt : Option Instant
  processAfter : Option Instant
  lastHeartbeatAt : Option Instant
  numResets : Int
  numFailures : Int
  service : Int
deriving DecidableEq, Inhabited

namespace StoredTime

/-- Whether a time is written with a year of four digits and no sign. -/
def isPlain (t : Instant) : Bool :=
  0 ≤ t.year && t.year ≤ 9999

/-- The text that is stored for a time. -/
def text (t : Instant) : String :=
  Time.Timestamp.writeIn "+00:00" t

/-- Whether the text of `a` comes before that of `b`. Between plain times this is the order of
time. -/
def before (a b : Instant) : Bool :=
  if isPlain a && isPlain b then a < b else text a < text b

end StoredTime

end RepoCatalog
