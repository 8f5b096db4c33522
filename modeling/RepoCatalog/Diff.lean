import RepoCatalog.Repo

/-!
# Differences

What one pass does to the catalog, as four lists of repositories. `Diff.between` compares a listing
with what is stored: entries of one identity are merged, of entries with one name the smallest
identity survives, and each stored repository is then revised, kept or deleted.
-/
namespace RepoCatalog

/-- The outcome of comparing a listing with the catalog. -/
structure Diff where
  added : List Repo
  deleted : List Repo
  modified : List Repo
  unmodified : List Repo
deriving DecidableEq, Inhabited

namespace Diff

def empty : Diff := ⟨[], [], [], []⟩

instance : EmptyCollection Diff := ⟨empty⟩

def sort (d : Diff) : Diff :=
  ⟨Repo.sort d.added, Repo.sort d.deleted, Repo.sort d.modified, Repo.sort d.unmodified⟩

def repos (d : Diff) : List Repo :=
  d.added ++ d.deleted ++ d.modified ++ d.unmodified

def size (d : Diff) : Nat :=
  d.added.length + d.deleted.length + d.modified.length + d.unmodified.length

def isEmpty (d : Diff) : Bool :=
  d.size == 0

def hasChanges (d : Diff) : Bool :=
  !d.added.isEmpty || !d.modified.isEmpty || !d.deleted.isEmpty

/-- Enters a listed repository. A second entry of one identity only adds claims to the first. -/
def enter (listed : Dict Spec Repo) (r : Repo) : Dict Spec Repo :=
  match listed.get? r.spec with
  | none => listed.insert r.spec r
  | some first => listed.insert r.spec { first with claims := first.claims.union r.claims }

/-- The listed repositories by identity. The first entry of an identity, by id, name and identity,
gives the attributes. -/
def mergeListed (sourced : List Repo) : Dict Spec Repo :=
  (Repo.sort sourced).foldl enter ∅

/-- Splits a list into the entries whose name did not occur before, and all others. -/
def splitByName (taken : List String) : List Repo → List Repo × List Repo
  | [] => ([], [])
  | r :: rs =>
    let name := r.lowerName
    if name ∈ taken then
      let (kept, lost) := splitByName taken rs
      (kept, r :: lost)
    else
      let (kept, lost) := splitByName (name :: taken) rs
      (r :: kept, lost)

/-- A stored repository that is no longer listed. Within the scope of one service it only loses
that service's claim. -/
def withdrawn (scope : Option String) (r : Repo) : Repo :=
  match scope with
  | some urn => { r with claims := r.claims.erase urn }
  | none => r.unclaimed

/-- Settles the stored repositories in turn. `survivors` are the listed repositories still to be
matched, and `losers` the identities that lost their name to a smaller one. -/
def settle (scope : Option String) : Dict Spec Repo → List Spec → List Repo → Diff
  | survivors, _, [] => { empty with added := survivors.values }
  | survivors, losers, old :: rest =>
    match survivors.get? old.spec with
    | some listed =>
      let d := settle scope (survivors.erase old.spec) losers rest
      if old.differs listed then { d with modified := old.revised listed :: d.modified }
      else { d with unmodified := old :: d.unmodified }
    | none =>
      if old.spec ∈ losers then
        let d := settle scope survivors (losers.erase old.spec) rest
        { d with deleted := old.unclaimed :: d.deleted }
      else
        let d := settle scope survivors losers rest
        { d with deleted := withdrawn scope old :: d.deleted }

/-- What has to be done to make `stored` agree with `sourced`. With a scope, only the claims of the
service of that name are at stake. -/
def between (scope : Option String) (sourced stored : List Repo) : Diff :=
  let (kept, lost) := splitByName [] (mergeListed sourced).values
  settle scope (kept.foldl (fun d r => d.insert r.spec r) ∅) (lost.map (·.spec)) stored

end Diff

end RepoCatalog
