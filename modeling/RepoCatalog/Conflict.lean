import RepoCatalog.Diff

/-!
# Names that are taken

An added or modified repository may want a name that another stored repository holds. The smaller
identity keeps the name. The holder that loses is deleted from the catalog, and so is a loser among
the modified; a loser among the added was never stored and is left out.
-/
namespace RepoCatalog

/-- What has been settled so far: the identities that are deleted, and the repositories that were
deleted for their name, in order. -/
structure Settlement where
  gone : List Spec
  dropped : List Repo

namespace Settlement

/-- Deletes a repository unless its identity is deleted already. -/
def drop (s : Settlement) (r : Repo) : Settlement :=
  if r.spec ∈ s.gone then s else ⟨r.spec :: s.gone, s.dropped ++ [r.unclaimed]⟩

/-- Settles one repository against the holders of its name. Holders are looked at in order, up to
the first that has a smaller identity. -/
def settle (s : Settlement) (holders : List (String × Repo)) (r : Repo) : Settlement × Bool :=
  let name := r.lowerName
  let rivals := (holders.filter fun h => h.1 == name && h.2.spec != r.spec).map (·.2)
  let beaten := rivals.takeWhile (r.spec < ·.spec)
  let s := beaten.foldl drop s
  if beaten.length = rivals.length then (s, true)
  else (if r.id ≠ 0 then s.drop r else s, false)

/-- Settles repositories in turn and keeps those that win. -/
def settleAll (holders : List (String × Repo)) : Settlement → List Repo → Settlement × List Repo
  | s, [] => (s, [])
  | s, r :: rs =>
    let (s, wins) := s.settle holders r
    let (s, kept) := settleAll holders s rs
    (s, if wins then r :: kept else kept)

end Settlement

/-- Settles the names that added and modified repositories share with `conflicting` stored ones. -/
def Diff.resolveNames (d : Diff) (conflicting : List Repo) : Diff :=
  let holders := conflicting.map fun r => (r.lowerName, r)
  let (s, added) := Settlement.settleAll holders ⟨d.deleted.map (·.spec), []⟩ d.added
  let (s, modified) := Settlement.settleAll holders s d.modified
  { d with added, modified, deleted := d.deleted ++ s.dropped }

end RepoCatalog
