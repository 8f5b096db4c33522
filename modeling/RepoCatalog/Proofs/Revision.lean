import RepoCatalog.Proofs.Survivors

/-!
# Taking over what is listed

A stored repository takes over the attributes of a listed one. It changes exactly if the comparison
of the two says so, and then nothing is left to take over.
-/
namespace RepoCatalog

theorem Spec.isEmpty_iff (s : Spec) : s.isEmpty = true ↔ s = .empty := by
  cases s
  simp [isEmpty, Spec.empty, and_assoc]

theorem Spec.isEmpty_eq_false_iff (s : Spec) : s.isEmpty = false ↔ s ≠ .empty := by
  rw [← Bool.not_eq_true, isEmpty_iff]

namespace Repo

/-- `r` is `a` with the listed attributes of `n`. An empty identity says nothing, a deletion is
taken back and never taken over, and what only the catalog knows stays. -/
structure TakesOver (a n r : Repo) : Prop where
  name : r.name = n.name
  uri : r.uri = n.uri
  description : r.description = n.description
  isFork : r.isFork = n.isFork
  isArchived : r.isArchived = n.isArchived
  isPrivate : r.isPrivate = n.isPrivate
  claims : r.claims = n.claims
  spec_of_listed : n.spec ≠ .empty → r.spec = n.spec
  spec_of_empty : n.spec = .empty → r.spec = a.spec
  live_of_live : n.deletedAt = none → r.deletedAt = none
  deletedAt_of_deleted : n.deletedAt ≠ none → r.deletedAt = a.deletedAt
  id : r.id = a.id
  createdAt : r.createdAt = a.createdAt
  updatedAt : r.updatedAt = a.updatedAt

variable {a n r s : Repo}

theorem takesOver_revised (a n : Repo) : TakesOver a n (a.revised n) where
  name := rfl
  uri := rfl
  description := rfl
  isFork := rfl
  isArchived := rfl
  isPrivate := rfl
  claims := rfl
  spec_of_listed h := if_neg (Bool.eq_false_iff.mp (n.spec.isEmpty_eq_false_iff.mpr h))
  spec_of_empty h := if_pos (n.spec.isEmpty_iff.mpr h)
  live_of_live h := if_pos (Option.isNone_iff_eq_none.mpr h)
  deletedAt_of_deleted h := if_neg (mt Option.isNone_iff_eq_none.mp h)
  id := rfl
  createdAt := rfl
  updatedAt := rfl

/-- The attributes say all of a repository. -/
theorem TakesOver.unique (hr : TakesOver a n r) (hs : TakesOver a n s) : r = s := by
  have hspec : r.spec = s.spec := by
    by_cases h : n.spec = .empty
    · rw [hr.spec_of_empty h, hs.spec_of_empty h]
    · rw [hr.spec_of_listed h, hs.spec_of_listed h]
  have hdeleted : r.deletedAt = s.deletedAt := by
    by_cases h : n.deletedAt = none
    · rw [hr.live_of_live h, hs.live_of_live h]
    · rw [hr.deletedAt_of_deleted h, hs.deletedAt_of_deleted h]
  obtain ⟨hname, huri, hdescription, hfork, harchived, hprivate, hclaims, -, -, -, -, hid, hcreated,
    hupdated⟩ := hr
  cases r
  cases s
  simp only [Repo.mk.injEq]
  exact ⟨hid.trans hs.id.symm, hname.trans hs.name.symm, huri.trans hs.uri.symm,
    hdescription.trans hs.description.symm, hfork.trans hs.isFork.symm,
    harchived.trans hs.isArchived.symm, hprivate.trans hs.isPrivate.symm, hspec,
    hclaims.trans hs.claims.symm, hcreated.trans hs.createdAt.symm,
    hupdated.trans hs.updatedAt.symm, hdeleted⟩

theorem Same.takesOver (h : a.Same n) : TakesOver a n a where
  name := h.name
  uri := h.uri
  description := h.description
  isFork := h.isFork
  isArchived := h.isArchived
  isPrivate := h.isPrivate
  claims := h.claims
  spec_of_listed hspec := h.spec (n.spec.isEmpty_eq_false_iff.mpr hspec)
  spec_of_empty _ := rfl
  live_of_live := h.live
  deletedAt_of_deleted _ := rfl
  id := rfl
  createdAt := rfl
  updatedAt := rfl

theorem same_iff_revised_eq : a.Same n ↔ a.revised n = a := by
  constructor
  · intro h
    exact (takesOver_revised a n).unique h.takesOver
  · intro h
    rw [← h]
    exact same_revised a n

theorem differs_eq_false_iff : a.differs n = false ↔ a.revised n = a := by
  rw [← same_iff_revised_eq]
  exact ⟨same_of_differs, Same.differs⟩

/-- The comparison says exactly whether a repository changes when it takes over what is listed;
what it becomes is determined, and doing it again changes nothing. -/
theorem update_exact (a n : Repo) :
    (∀ r, r = a.revised n ↔ TakesOver a n r) ∧
    (a.differs n = true ↔ a.revised n ≠ a) ∧
    (a.revised n).differs n = false ∧ (a.revised n).revised n = a.revised n := by
  have hsettled : (a.revised n).differs n = false := (same_revised a n).differs
  refine ⟨?_, ?_, hsettled, differs_eq_false_iff.mp hsettled⟩
  · intro r
    constructor
    · rintro rfl
      exact takesOver_revised a n
    · intro h
      exact h.unique (takesOver_revised a n)
  · rw [← Bool.not_eq_false, ne_eq, differs_eq_false_iff]

end Repo

end RepoCatalog
