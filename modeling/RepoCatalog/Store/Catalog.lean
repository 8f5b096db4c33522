import RepoCatalog.Store.Error
import RepoCatalog.Store.Row
import RepoCatalog.Store.Table

/-!
# The catalog

All tables together with the rules that the database enforces: an identity belongs to one
repository, live or not; the names of live repositories differ in more than case; names of users
differ; and what a row refers to exists. A catalog keeps these rules, because a change that breaks
one is refused.
-/
namespace RepoCatalog

/-- All tables, and how many of them have been created. -/
structure Tables where
  /-- How many steps of the schema have been taken. -/
  version : Nat
  users : Table User
  services : Table ServiceRow
  repos : Table RepoRow
  members : Dict MemberKey Membership
  jobs : Table JobRow

namespace Tables

/-- Whether the user that a service names exists. -/
def hasOwner (t : Tables) (row : ServiceRow) : Bool :=
  row.namespaceUserId.all t.users.contains

/-- Whether a membership refers to rows that exist. -/
def hasEnds (t : Tables) (key : MemberKey) : Bool :=
  t.services.contains key.service && t.repos.contains key.repo

/-- The rules that the database enforces. -/
structure Sound (t : Tables) : Prop where
  userNames : ∀ a ∈ t.users.toList, ∀ b ∈ t.users.toList, a.2.name = b.2.name → a.1 = b.1
  specs : ∀ a ∈ t.repos.toList, ∀ b ∈ t.repos.toList, a.2.spec = b.2.spec → a.1 = b.1
  names : ∀ a ∈ t.repos.toList, ∀ b ∈ t.repos.toList, a.2.isLive = true → b.2.isLive = true →
    a.2.nameKey = b.2.nameKey → a.1 = b.1
  owners : ∀ a ∈ t.services.toList, t.hasOwner a.2 = true
  ends : ∀ a ∈ t.members.entries, t.hasEnds a.1 = true
  jobServices : ∀ a ∈ t.jobs.toList, t.services.contains a.2.service = true

/-- No table at all. -/
def bare : Tables :=
  ⟨0, .empty, .empty, .empty, ∅, .empty⟩

theorem sound_bare : bare.Sound where
  userNames a ha := absurd ha (Table.not_mem_empty a)
  specs a ha := absurd ha (Table.not_mem_empty a)
  names a ha := absurd ha (Table.not_mem_empty a)
  owners a ha := absurd ha (Table.not_mem_empty a)
  ends a ha := by cases ha
  jobServices a ha := absurd ha (Table.not_mem_empty a)

end Tables

/-- Tables that keep the rules. -/
structure Catalog extends Tables where
  sound : toTables.Sound

namespace Catalog

def bare : Catalog :=
  ⟨Tables.bare, Tables.sound_bare⟩

instance : Inhabited Catalog := ⟨bare⟩

abbrev Change (α : Type) := Except DatabaseError (α × Catalog)

def refuse {α : Type} (fault : DatabaseFault) : Change α :=
  .error (.refusedWrite fault)

def hasUserName (c : Catalog) (name : String) : Bool :=
  c.users.toList.any fun e => e.2.name == name

theorem sound_addUser (c : Catalog) (u : User) (h : c.hasUserName u.name = false) :
    ({ c.toTables with users := c.users.append u } : Tables).Sound :=
  { c.sound with
    userNames := fun a ha b hb hab => by
      have taken : ∀ e ∈ c.users.toList, e.2.name ≠ u.name := by
        simpa [hasUserName] using h
      rcases Table.mem_append ha with rfl | ha <;> rcases Table.mem_append hb with rfl | hb
      · rfl
      · exact absurd hab.symm (taken b hb)
      · exact absurd hab (taken a ha)
      · exact c.sound.userNames a ha b hb hab
    owners := fun a ha => by
      have hown := c.sound.owners a ha
      unfold Tables.hasOwner at hown ⊢
      cases hid : a.2.namespaceUserId with
      | none => rfl
      | some id =>
        rw [hid] at hown
        exact Table.contains_append u hown }

def addUser (c : Catalog) (u : User) : Change Int :=
  if h : c.hasUserName u.name = false then
    .ok (c.users.nextId, ⟨{ c.toTables with users := c.users.append u }, c.sound_addUser u h⟩)
  else refuse .takenUsername

theorem sound_addService (c : Catalog) (row : ServiceRow) (h : c.hasOwner row = true) :
    ({ c.toTables with services := c.services.append row } : Tables).Sound :=
  { c.sound with
    owners := fun a ha => by
      rcases Table.mem_append ha with rfl | ha
      · exact h
      · exact c.sound.owners a ha
    ends := fun a ha => by
      have hend := c.sound.ends a ha
      unfold Tables.hasEnds at hend ⊢
      rw [Bool.and_eq_true] at hend ⊢
      exact ⟨Table.contains_append row hend.1, hend.2⟩
    jobServices := fun a ha => Table.contains_append row (c.sound.jobServices a ha) }

def addService (c : Catalog) (row : ServiceRow) : Change Int :=
  if h : c.hasOwner row = true then
    .ok (c.services.nextId,
      ⟨{ c.toTables with services := c.services.append row }, c.sound_addService row h⟩)
  else refuse .danglingReference

theorem sound_putService (c : Catalog) (id : Int) (row : ServiceRow) (h : c.hasOwner row = true) :
    ({ c.toTables with services := c.services.modify id fun _ => row } : Tables).Sound :=
  { c.sound with
    owners := fun a ha => by
      obtain ⟨x, hx, rfl⟩ := Table.mem_map.mp ha
      simp only
      split
      · exact h
      · exact c.sound.owners x hx
    ends := fun a ha => by
      have hend := c.sound.ends a ha
      unfold Tables.hasEnds at hend ⊢
      simpa [Table.modify] using hend
    jobServices := fun a ha => by
      simpa [Table.modify] using c.sound.jobServices a ha }

def changeService (c : Catalog) (id : Int) (f : ServiceRow → ServiceRow) : Change Unit :=
  match c.services.get? id with
  | none => .error .nothingUpdated
  | some row =>
    if h : c.hasOwner (f row) = true then
      .ok ((), ⟨{ c.toTables with services := c.services.modify id fun _ => f row },
        c.sound_putService id (f row) h⟩)
    else refuse .danglingReference

/-- Whether a live repository other than that of the given id has the row's name. -/
def nameIsTaken (c : Catalog) (id : Int) (row : RepoRow) : Bool :=
  c.repos.toList.any fun e => e.1 != id && e.2.isLive && e.2.nameKey == row.nameKey

/-- Whether a repository other than that of the given id has the row's identity. -/
def specIsTaken (c : Catalog) (id : Int) (row : RepoRow) : Bool :=
  c.repos.toList.any fun e => e.1 != id && e.2.spec == row.spec

/-- The rule that a row under this id would break; names are looked at first. -/
def repoFault? (c : Catalog) (id : Int) (row : RepoRow) : Option DatabaseFault :=
  if row.isLive && c.nameIsTaken id row then some .takenName
  else if c.specIsTaken id row then some .takenSpec
  else none

theorem repoFault?_eq_none {c : Catalog} {id : Int} {row : RepoRow}
    (h : c.repoFault? id row = none) :
    (∀ e ∈ c.repos.toList, e.2.spec = row.spec → e.1 = id) ∧
      (∀ e ∈ c.repos.toList, row.isLive = true → e.2.isLive = true →
        e.2.nameKey = row.nameKey → e.1 = id) := by
  unfold repoFault? at h
  split at h
  · cases h
  · rename_i hname
    split at h
    · cases h
    · rename_i hspec
      constructor
      · intro e he hes
        by_cases hid : e.1 = id
        · exact hid
        · refine absurd ?_ hspec
          exact List.any_eq_true.mpr ⟨e, he, by simp [hid, hes]⟩
      · intro e he hlive helive hkey
        by_cases hid : e.1 = id
        · exact hid
        · refine absurd ?_ hname
          rw [hlive, Bool.true_and]
          exact List.any_eq_true.mpr ⟨e, he, by simp [hid, helive, hkey]⟩

theorem sound_addRepo (c : Catalog) (row : RepoRow)
    (h : c.repoFault? c.repos.nextId row = none) :
    ({ c.toTables with repos := c.repos.append row } : Tables).Sound :=
  { c.sound with
    specs := fun a ha b hb hab => by
      have fresh := (repoFault?_eq_none h).1
      rcases Table.mem_append ha with rfl | ha <;> rcases Table.mem_append hb with rfl | hb
      · rfl
      · exact (fresh b hb hab.symm).symm
      · exact fresh a ha hab
      · exact c.sound.specs a ha b hb hab
    names := fun a ha b hb hla hlb hab => by
      have fresh := (repoFault?_eq_none h).2
      rcases Table.mem_append ha with rfl | ha <;> rcases Table.mem_append hb with rfl | hb
      · rfl
      · exact (fresh b hb hla hlb hab.symm).symm
      · exact fresh a ha hlb hla hab
      · exact c.sound.names a ha b hb hla hlb hab
    ends := fun a ha => by
      have hend := c.sound.ends a ha
      unfold Tables.hasEnds at hend ⊢
      rw [Bool.and_eq_true] at hend ⊢
      exact ⟨hend.1, Table.contains_append row hend.2⟩ }

def addRepo (c : Catalog) (row : RepoRow) : Change Int :=
  match h : c.repoFault? c.repos.nextId row with
  | some fault => refuse fault
  | none => .ok (c.repos.nextId,
      ⟨{ c.toTables with repos := c.repos.append row }, c.sound_addRepo row h⟩)

theorem sound_replaceRepo (c : Catalog) (id : Int) (row : RepoRow)
    (h : c.repoFault? id row = none) :
    ({ c.toTables with repos := c.repos.modify id fun _ => row } : Tables).Sound :=
  { c.sound with
    specs := fun a ha b hb hab => by
      have fresh := (repoFault?_eq_none h).1
      obtain ⟨x, hx, rfl⟩ := Table.mem_map.mp ha
      obtain ⟨y, hy, rfl⟩ := Table.mem_map.mp hb
      by_cases hxi : x.1 = id <;> by_cases hyi : y.1 = id <;>
        simp only [hxi, hyi, if_true, if_false] at hab
      · exact hxi.trans hyi.symm
      · exact absurd (fresh y hy hab.symm) hyi
      · exact absurd (fresh x hx hab) hxi
      · exact c.sound.specs x hx y hy hab
    names := fun a ha b hb hla hlb hab => by
      have fresh := (repoFault?_eq_none h).2
      obtain ⟨x, hx, rfl⟩ := Table.mem_map.mp ha
      obtain ⟨y, hy, rfl⟩ := Table.mem_map.mp hb
      by_cases hxi : x.1 = id <;> by_cases hyi : y.1 = id <;>
        simp only [hxi, hyi, if_true, if_false] at hla hlb hab
      · exact hxi.trans hyi.symm
      · exact absurd (fresh y hy hla hlb hab.symm) hyi
      · exact absurd (fresh x hx hlb hla hab) hxi
      · exact c.sound.names x hx y hy hla hlb hab
    ends := fun a ha => by
      have hend := c.sound.ends a ha
      unfold Tables.hasEnds at hend ⊢
      simpa [Table.modify] using hend }

def replaceRepo (c : Catalog) (id : Int) (row : RepoRow) : Change Unit :=
  if c.repos.contains id then
    match h : c.repoFault? id row with
    | some fault => refuse fault
    | none => .ok ((), ⟨{ c.toTables with repos := c.repos.modify id fun _ => row },
        c.sound_replaceRepo id row h⟩)
  else .error .nothingUpdated

/-- The row of a repository that is a tombstone from now on, if it was live. -/
def bury (now : Time.Instant) (row : RepoRow) : RepoRow :=
  if row.isLive then { row with deletedAt := some now, updatedAt := now } else row

theorem spec_bury (now : Time.Instant) (row : RepoRow) : (bury now row).spec = row.spec := by
  unfold bury
  split <;> rfl

theorem not_isLive_bury (now : Time.Instant) (row : RepoRow) : (bury now row).isLive = false := by
  unfold bury
  split
  · rfl
  · simpa using ‹¬row.isLive = true›

theorem sound_buryRepos (c : Catalog) (now : Time.Instant) (p : Int → Bool) :
    ({ c.toTables with
      repos := c.repos.map fun id row => if p id then bury now row else row } : Tables).Sound :=
  { c.sound with
    specs := fun a ha b hb hab => by
      obtain ⟨x, hx, rfl⟩ := Table.mem_map.mp ha
      obtain ⟨y, hy, rfl⟩ := Table.mem_map.mp hb
      refine c.sound.specs x hx y hy ?_
      by_cases hxp : p x.1 <;> by_cases hyp : p y.1 <;> simpa [hxp, hyp, spec_bury] using hab
    names := fun a ha b hb hla hlb hab => by
      obtain ⟨x, hx, rfl⟩ := Table.mem_map.mp ha
      obtain ⟨y, hy, rfl⟩ := Table.mem_map.mp hb
      by_cases hxp : p x.1
      · simp [hxp, not_isLive_bury] at hla
      · by_cases hyp : p y.1
        · simp [hyp, not_isLive_bury] at hlb
        · refine c.sound.names x hx y hy ?_ ?_ ?_
          · simpa [hxp] using hla
          · simpa [hyp] using hlb
          · simpa [hxp, hyp] using hab
    ends := fun a ha => by
      have hend := c.sound.ends a ha
      unfold Tables.hasEnds at hend ⊢
      simpa using hend }

/-- Makes tombstones of the live repositories whose ids satisfy `p`. -/
def buryRepos (c : Catalog) (now : Time.Instant) (p : Int → Bool) : Catalog :=
  ⟨{ c.toTables with repos := c.repos.map fun id row => if p id then bury now row else row },
    c.sound_buryRepos now p⟩

theorem sound_putMember (c : Catalog) (key : MemberKey) (m : Membership)
    (h : c.hasEnds key = true) :
    ({ c.toTables with members := c.members.insert key m } : Tables).Sound :=
  { c.sound with
    ends := fun a ha => by
      rcases Dict.mem_place ha with rfl | ha
      · exact h
      · exact c.sound.ends a ha }

/-- Stores a membership, over an earlier one of the same repository and service. -/
def putMember (c : Catalog) (key : MemberKey) (m : Membership) : Change Unit :=
  if h : c.hasEnds key = true then
    .ok ((), ⟨{ c.toTables with members := c.members.insert key m }, c.sound_putMember key m h⟩)
  else refuse .danglingReference

theorem sound_dropMembers (c : Catalog) (p : MemberKey → Bool) :
    ({ c.toTables with members := c.members.filterKeys fun k => !p k } : Tables).Sound :=
  { c.sound with
    ends := fun a ha => c.sound.ends a (List.mem_filter.mp ha).1 }

def dropMembers (c : Catalog) (p : MemberKey → Bool) : Catalog :=
  ⟨{ c.toTables with members := c.members.filterKeys fun k => !p k }, c.sound_dropMembers p⟩

def isClaimed (c : Catalog) (repo : Int) : Bool :=
  c.members.entries.any fun e => e.1.repo == repo

theorem sound_addJob (c : Catalog) (row : JobRow) (h : c.services.contains row.service = true) :
    ({ c.toTables with jobs := c.jobs.append row } : Tables).Sound :=
  { c.sound with
    jobServices := fun a ha => by
      rcases Table.mem_append ha with rfl | ha
      · exact h
      · exact c.sound.jobServices a ha }

def addJob (c : Catalog) (row : JobRow) : Change Int :=
  if h : c.services.contains row.service = true then
    .ok (c.jobs.nextId, ⟨{ c.toTables with jobs := c.jobs.append row }, c.sound_addJob row h⟩)
  else refuse .danglingReference

/-- The jobs after a change of those that satisfy `p`. No job is moved to another service. -/
def changedJobs (c : Catalog) (p : Int → JobRow → Bool) (f : JobRow → JobRow) : Table JobRow :=
  c.jobs.map fun id row => if p id row then { f row with service := row.service } else row

theorem sound_changeJobs (c : Catalog) (p : Int → JobRow → Bool) (f : JobRow → JobRow) :
    ({ c.toTables with jobs := c.changedJobs p f } : Tables).Sound :=
  { c.sound with
    jobServices := fun a ha => by
      obtain ⟨x, hx, rfl⟩ := Table.mem_map.mp ha
      have hservice := c.sound.jobServices x hx
      simp only
      split
      · exact hservice
      · exact hservice }

def changeJobs (c : Catalog) (p : Int → JobRow → Bool) (f : JobRow → JobRow) : Nat × Catalog :=
  (c.jobs.count p, ⟨{ c.toTables with jobs := c.changedJobs p f }, c.sound_changeJobs p f⟩)

def changeJob (c : Catalog) (id : Int) (f : JobRow → JobRow) : Change Unit :=
  if c.jobs.contains id then .ok ((), (c.changeJobs (fun k _ => k == id) f).2)
  else .error .nothingUpdated

theorem sound_dropJobs (c : Catalog) (p : Int → JobRow → Bool) :
    ({ c.toTables with jobs := c.jobs.filter fun id row => !p id row } : Tables).Sound :=
  { c.sound with
    jobServices := fun a ha => c.sound.jobServices a (Table.mem_filter.mp ha).1 }

def dropJobs (c : Catalog) (p : Int → JobRow → Bool) : Nat × Catalog :=
  (c.jobs.count p,
    ⟨{ c.toTables with jobs := c.jobs.filter fun id row => !p id row }, c.sound_dropJobs p⟩)

end Catalog

end RepoCatalog
