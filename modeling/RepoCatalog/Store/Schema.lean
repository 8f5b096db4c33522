import RepoCatalog.Store.Catalog

/-!
# The schema

The tables are created one after the other, each with its indexes, and dropped in the reverse
order. Dropping a table loses its rows and its count of ids.
-/
namespace RepoCatalog

/-- The tables, in the order in which they are created. -/
inductive TableName where
  | users
  | services
  | repos
  | members
  | jobs
deriving DecidableEq, Inhabited

namespace TableName

def all : List TableName :=
  [.users, .services, .repos, .members, .jobs]

def text : TableName → String
  | .users => "users"
  | .services => "external_services"
  | .repos => "repos"
  | .members => "external_service_repos"
  | .jobs => "external_service_sync_jobs"

/-- How many steps of the schema create the table. -/
def level : TableName → Nat
  | .users => 1
  | .services => 2
  | .repos => 3
  | .members => 4
  | .jobs => 5

/-- The indexes that are created together with the table. -/
def indexes : TableName → List String
  | .users => []
  | .services => ["idx_external_services_next_sync_at"]
  | .repos => ["idx_repos_external_repo_unique", "idx_repos_name_unique"]
  | .members => ["idx_external_service_repos_repo_id", "idx_external_service_repos_user_id"]
  | .jobs => ["idx_external_service_sync_jobs_service_state",
      "idx_external_service_sync_jobs_state_queued_at"]

end TableName

inductive SchemaEntry where
  | table (name : String)
  | index (name : String)
deriving DecidableEq, Inhabited

def SchemaEntry.name : SchemaEntry → String
  | .table name => name
  | .index name => name

namespace Catalog

def hasTable (c : Catalog) (t : TableName) : Bool :=
  t.level ≤ c.version

/-- The name of the table that records which steps have been taken; it is never dropped. -/
def stepsTable : String :=
  "seaql_migrations"

def schema (c : Catalog) : List SchemaEntry :=
  let created := (TableName.all.filter c.hasTable).flatMap fun t =>
    .table t.text :: t.indexes.map .index
  (.table stepsTable :: created).mergeSort fun a b => a.name ≤ b.name

theorem sound_upgrade (c : Catalog) (version : Nat) :
    ({ c.toTables with version := version } : Tables).Sound :=
  { c.sound with }

/-- Creates the next `steps` tables, or all that are missing. -/
def upgrade (c : Catalog) (steps : Option Nat) : Catalog :=
  let all := TableName.all.length
  ⟨{ c.toTables with version := min all (c.version + steps.getD all) }, c.sound_upgrade _⟩

/-- The first `version` tables, and nothing in the others. -/
def truncated (c : Catalog) (version : Nat) : Tables :=
  let keeps (t : TableName) : Bool := t.level ≤ version
  { version := version
    users := if keeps .users then c.users else .empty
    services := if keeps .services then c.services else .empty
    repos := if keeps .repos then c.repos else .empty
    members := if keeps .members then c.members else ∅
    jobs := if keeps .jobs then c.jobs else .empty }

theorem mem_kept {α : Type} {keeps : Bool} {t : Table α} {a : Int × α} :
    a ∈ (if keeps = true then t else .empty).toList ↔ keeps = true ∧ a ∈ t.toList := by
  cases keeps with
  | true => simp
  | false => simpa using Table.not_mem_empty a

/-- What a row refers to is in a table of a lower level, which is kept together with its own. -/
theorem sound_truncated (c : Catalog) (version : Nat) : (c.truncated version).Sound where
  userNames a ha b hb := c.sound.userNames a (mem_kept.mp ha).2 b (mem_kept.mp hb).2
  specs a ha b hb := c.sound.specs a (mem_kept.mp ha).2 b (mem_kept.mp hb).2
  names a ha b hb := c.sound.names a (mem_kept.mp ha).2 b (mem_kept.mp hb).2
  owners a ha := by
    obtain ⟨hkept, ha⟩ := mem_kept.mp ha
    have husers : TableName.users.level ≤ version :=
      Nat.le_trans (by decide) (of_decide_eq_true hkept)
    unfold Tables.hasOwner truncated
    simp only [husers, decide_true, if_true]
    exact c.sound.owners a ha
  ends a ha := by
    by_cases hkept : TableName.members.level ≤ version
    · have hservices : TableName.services.level ≤ version := Nat.le_trans (by decide) hkept
      have hrepos : TableName.repos.level ≤ version := Nat.le_trans (by decide) hkept
      unfold truncated at ha
      unfold Tables.hasEnds truncated
      simp only [hkept, hservices, hrepos, decide_true, if_true] at ha ⊢
      exact c.sound.ends a ha
    · unfold truncated at ha
      simp only [hkept, decide_false, Bool.false_eq_true, if_false] at ha
      cases ha
  jobServices a ha := by
    obtain ⟨hkept, ha⟩ := mem_kept.mp ha
    have hservices : TableName.services.level ≤ version :=
      Nat.le_trans (by decide) (of_decide_eq_true hkept)
    unfold truncated
    simp only [hservices, decide_true, if_true]
    exact c.sound.jobServices a ha

/-- Drops the last `steps` tables, or all. -/
def downgrade (c : Catalog) (steps : Option Nat) : Catalog :=
  let version := c.version - steps.getD c.version
  ⟨c.truncated version, c.sound_truncated version⟩

def empty : Catalog :=
  bare.upgrade none

end Catalog

end RepoCatalog
