import RepoCatalog.Diff

/-!
# Edits of claims

The fewest edits that turn the stored claims on repositories into those of a difference.
-/
namespace RepoCatalog

structure ClaimEdits where
  added : List Claim
  modified : List Claim
  deleted : List Claim
deriving DecidableEq, Inhabited

namespace ClaimEdits

def isEmpty (e : ClaimEdits) : Bool :=
  e.added.isEmpty && e.modified.isEmpty && e.deleted.isEmpty

/-- The edits that turn `old` into `new`: claims of services that `old` lacks, claims whose clone
URL changes, and claims of services that `new` lacks. -/
def between (old new : Claims) : ClaimEdits where
  added := (new.entries.filter fun e => !old.contains e.1).map (·.2)
  modified := old.entries.filterMap fun e =>
    (new.get? e.1).filter fun c => c.cloneUrl != e.2.cloneUrl
  deleted := (old.entries.filter fun e => !new.contains e.1).map (·.2)

/-- Carries the edits out, each claim under the name of its service. -/
def apply (e : ClaimEdits) (claims : Claims) : Claims :=
  let kept := e.deleted.foldl (fun d c => d.erase c.urn) claims
  (e.modified ++ e.added).foldl (fun d c => d.insert c.urn c) kept

end ClaimEdits

abbrev ClaimsByRepo := Dict Int (List Claim)

/-- Edits of the claims on many repositories. -/
structure MembershipEdits where
  added : ClaimsByRepo
  modified : ClaimsByRepo
  deleted : ClaimsByRepo
deriving DecidableEq

namespace MembershipEdits

def empty : MembershipEdits := ⟨∅, ∅, ∅⟩

/-- Appends claims to those of one repository; no claims make no entry. -/
def append (d : ClaimsByRepo) (id : Int) (cs : List Claim) : ClaimsByRepo :=
  if cs.isEmpty then d else d.alter id fun old => old.getD [] ++ cs

def record (m : MembershipEdits) (id : Int) (e : ClaimEdits) : MembershipEdits :=
  ⟨append m.added id e.added, append m.modified id e.modified, append m.deleted id e.deleted⟩

/-- The edits that a difference implies. An added repository is compared with its stored state if
there is one; modified and deleted ones only count if there is one. Nothing is recorded for a
repository without an id. Of several stored states with one id the last counts. -/
def ofDiff (d : Diff) (previous : List Repo) : MembershipEdits :=
  let known : Dict Int Repo :=
    .ofList ((previous.filter (·.id != 0)).map fun r => (r.id, r))
  let fromAdded := (d.added.filter (·.id != 0)).foldl (fun m r =>
    let old := (known.get? r.id).elim ∅ (·.claims)
    m.record r.id (.between old r.claims)) empty
  ((d.modified ++ d.deleted).filter (·.id != 0)).foldl (fun m r =>
    match known.get? r.id with
    | some old => m.record r.id (.between old.claims r.claims)
    | none => m) fromAdded

end MembershipEdits

end RepoCatalog
