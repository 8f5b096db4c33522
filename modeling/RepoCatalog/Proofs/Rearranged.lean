import RepoCatalog.Proofs.Earliest
import RepoCatalog.Proofs.Reach

/-!
# Listings in another order

A comparison does not depend on the order of the listing if the entries that the order by id, name
and identity does not tell apart are equal. Nor does it depend on the order in which the entries
that keep their names are gathered.
-/
namespace RepoCatalog

theorem Dict.insert_comm {κ α : Type} [Ord κ] [Std.TransOrd κ] [Std.LawfulEqOrd κ] [DecidableEq κ]
    (d : Dict κ α) {j k : κ} (h : j ≠ k) (a b : α) :
    (d.insert j a).insert k b = (d.insert k b).insert j a := by
  apply Dict.ext_get?
  intro l
  simp only [Dict.get?_insert]
  by_cases hk : l = k
  · have hj : l ≠ j := fun heq => h (heq.symm.trans hk)
    rw [if_pos hk, if_neg hj, if_pos hk]
  · rw [if_neg hk, if_neg hk]

namespace Diff

def gather (kept : List Repo) : Dict Spec Repo :=
  kept.foldl (fun d r => d.insert r.spec r) ∅

theorem survivorsOf_eq_gather (sourced : List Repo) :
    survivorsOf sourced = gather (splitByName [] (mergeListed sourced).values).1 :=
  rfl

theorem kept_sublist (taken : List String) (rs : List Repo) :
    (splitByName taken rs).1.Sublist rs := by
  induction rs generalizing taken with
  | nil => exact .slnil
  | cons r rs ih =>
      unfold splitByName
      by_cases hname : r.lowerName ∈ taken
      · simpa only [hname, if_true] using (ih taken).cons r
      · simpa only [hname, if_false] using (ih (r.lowerName :: taken)).cons_cons r

theorem gather_eq_of_perm {kept kept' : List Repo} (hperm : kept'.Perm kept)
    (hkept : kept.Pairwise fun a b => a.spec ≠ b.spec) : gather kept' = gather kept := by
  apply hperm.foldl_eq'
  intro x hx y hy d
  by_cases hspec : x.spec = y.spec
  · rw [eq_of_pairwise_spec hkept (hperm.mem_iff.mp hx) (hperm.mem_iff.mp hy) hspec]
  · exact Dict.insert_comm d hspec x y

theorem pairwise_kept (sourced : List Repo) :
    (splitByName [] (mergeListed sourced).values).1.Pairwise fun a b => a.spec ≠ b.spec :=
  ((pairwise_merged sourced).sublist (kept_sublist [] _)).imp Spec.ne_of_lt

theorem mergeListed_eq_of_perm {sourced again : List Repo} (hperm : sourced.Perm again)
    (hties : ∀ a ∈ sourced, ∀ b ∈ sourced,
      a.id = b.id → a.name = b.name → a.spec = b.spec → a = b) :
    mergeListed again = mergeListed sourced := by
  unfold mergeListed
  rw [Repo.sort_eq_of_perm hperm hties]

/-- The same entries in another order give the same difference, in whatever order those that keep
their names are gathered. -/
theorem between_eq_of_perm (scope : Option String) {sourced again : List Repo} (stored : List Repo)
    (hperm : sourced.Perm again)
    (hties : ∀ a ∈ sourced, ∀ b ∈ sourced,
      a.id = b.id → a.name = b.name → a.spec = b.spec → a = b) :
    between scope again stored = between scope sourced stored ∧
      ∀ kept : List Repo, kept.Perm (splitByName [] (mergeListed again).values).1 →
        settle scope (gather kept) (losersOf again) stored = between scope sourced stored := by
  have hbetween : between scope again stored = between scope sourced stored := by
    unfold between
    rw [mergeListed_eq_of_perm hperm hties]
  refine ⟨hbetween, ?_⟩
  intro kept hkept
  calc settle scope (gather kept) (losersOf again) stored
    _ = settle scope (survivorsOf again) (losersOf again) stored := by
      rw [gather_eq_of_perm hkept (pairwise_kept again), survivorsOf_eq_gather]
    _ = between scope again stored := rfl
    _ = between scope sourced stored := hbetween

open Sample in
/-- Two repositories that want one name, listed in both orders. -/
theorem between_eq_of_swapped :
    [entry "2" "alpha", entry "1" "Alpha"].Perm [entry "1" "Alpha", entry "2" "alpha"] ∧
      between none [entry "1" "Alpha", entry "2" "alpha"] [entry "2" "beta"] =
        between none [entry "2" "alpha", entry "1" "Alpha"] [entry "2" "beta"] := by
  have hperm : [entry "2" "alpha", entry "1" "Alpha"].Perm [entry "1" "Alpha", entry "2" "alpha"] :=
    .swap _ _ _
  refine ⟨hperm, (between_eq_of_perm none [entry "2" "beta"] hperm ?_).1⟩
  decide

end Diff

end RepoCatalog
