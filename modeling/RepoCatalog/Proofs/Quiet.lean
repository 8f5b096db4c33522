import RepoCatalog.Proofs.AllOrNothing
import RepoCatalog.Proofs.Success

/-!
# Batches that change nothing

A batch without anything to add, to modify or to delete leaves all rows and memberships as they are,
and nothing but its visit can keep it from going through.
-/
namespace RepoCatalog

open Step
open Time (Duration)

theorem Diff.hasChanges_eq_false_iff {d : Diff} :
    d.hasChanges = false ↔ d.added = [] ∧ d.modified = [] ∧ d.deleted = [] := by
  unfold hasChanges
  simp [and_assoc]

namespace Catalog

variable {c d e : Catalog} {previous : List Repo} {p : Diff}

/-- All rows of repositories and all memberships are the same. -/
structure SameRows (c d : Catalog) : Prop where
  repos : ∀ j, d.repos.get? j = c.repos.get? j
  members : ∀ k, d.members.get? k = c.members.get? k

theorem SameRows.refl (c : Catalog) : SameRows c c :=
  ⟨fun _ => rfl, fun _ => rfl⟩

theorem SameRows.symm (h : SameRows c d) : SameRows d c :=
  ⟨fun j => (h.repos j).symm, fun k => (h.members k).symm⟩

theorem SameRows.trans (h : SameRows c d) (h' : SameRows d e) : SameRows c e :=
  ⟨fun j => (h'.repos j).trans (h.repos j), fun k => (h'.members k).trans (h.members k)⟩

theorem SameRows.of_eq (hrepos : d.repos = c.repos) (hmembers : d.members = c.members) :
    SameRows c d :=
  ⟨fun j => by rw [hrepos], fun k => by rw [hmembers]⟩

theorem Visited.sameRows (h : Visited c d) : SameRows c d :=
  .of_eq h.repos h.members

theorem Edited.sameRows (h : Edited c .empty d) : SameRows c d := by
  refine ⟨fun j => by rw [h.repos], fun k => ?_⟩
  rw [h.get?_of_not_stores fun claim => ?_]
  · rfl
  · rintro ⟨h | h, -⟩ <;> cases h

theorem Deleted.sameRows (h : Deleted c [] d) : SameRows c d := by
  obtain ⟨now, hrepos⟩ := h.repos
  refine ⟨fun j => ?_, fun k => ?_⟩
  · rw [hrepos]
    simp
  · rw [h.members, if_neg List.not_mem_nil]

theorem ofDiff_quiet (hp : p.hasChanges = false) (previous : List Repo) :
    MembershipEdits.ofDiff p previous = .empty := by
  obtain ⟨hadded, hmodified, hdeleted⟩ := Diff.hasChanges_eq_false_iff.mp hp
  unfold MembershipEdits.ofDiff
  rw [hadded, hmodified, hdeleted]
  rfl

theorem Carried.sameRows (h : Carried c previous p d) (hp : p.hasChanges = false) :
    SameRows c d := by
  obtain ⟨now, hstripped, hdeleted, hmodified, hadded, hjoined, hvisited⟩ := h
  have hsame := Syncer.hasChanges_stamp p hmodified.length hadded.length
  rw [ofDiff_quiet (hsame.trans hp)] at hjoined
  rw [ofDiff_quiet hp] at hstripped
  obtain ⟨hnone, hnothing, hnobody⟩ := Diff.hasChanges_eq_false_iff.mp hp
  unfold Syncer.stamp at hmodified hadded
  rw [hnothing] at hmodified
  rw [hnone] at hadded
  rw [hnobody] at hdeleted
  cases hmodified
  cases hadded
  exact (Edited.sameRows hstripped).trans ((Deleted.sameRows hdeleted).trans
    ((Edited.sameRows hjoined).trans hvisited.sameRows))

end Catalog

namespace Syncer

open Effect Catalog

variable {y : Syncer} {svc : Service} {sourced : List Repo} {least : Duration} {w w' : World}

theorem hasChanges_of_applyBatch (hs : w.store.catalog.Furnished) {d : Diff}
    (h : y.applyBatch svc sourced least w = (.ok d, w')) :
    d.hasChanges = (planned w.store.catalog svc sourced).hasChanges := by
  obtain ⟨_, _, _, _, ms, as, v, interval, -, -, hmodified, hadded, -, -, -, rfl⟩ :=
    applyBatch_inv hs.tables h
  rw [Diff.hasChanges_sort]
  exact hasChanges_stamp _ hmodified.length hadded.length

/-- Nothing but its visit keeps a batch without changes from going through. -/
theorem run_applyBatch_quiet (hw : w.Calm) (hs : w.store.catalog.Furnished)
    (hquiet : (planned w.store.catalog svc sourced).hasChanges = false) :
    ∃ d v, y.applyBatch svc sourced least w = y.conclude svc least d v ∧ v.Calm ∧
      v.store.catalog = w.store.catalog ∧ v.published = w.published ∧ d.hasChanges = false := by
  obtain ⟨hnone, hnothing, hnobody⟩ := Diff.hasChanges_eq_false_iff.mp hquiet
  let d : Diff :=
    { stamp y.now (planned w.store.catalog svc sourced) with modified := [], added := [] }
  have hmodified : (stamp y.now (planned w.store.catalog svc sourced)).modified = [] := by
    unfold stamp
    rw [hnothing]
    rfl
  have hadded : (stamp y.now (planned w.store.catalog svc sourced)).added = [] := by
    unfold stamp
    rw [hnone]
    rfl
  have hd : d.hasChanges = false :=
    (hasChanges_stamp _ (congrArg List.length hmodified) (congrArg List.length hadded)).trans hquiet
  have hstrip : Store.editMembers { MembershipEdits.empty with
      deleted := (MembershipEdits.ofDiff (planned w.store.catalog svc sourced)
        (atStake w.store.catalog svc sourced)).deleted } w.store = (.ok (), w.store) := by
    rw [ofDiff_quiet hquiet]
    rfl
  have hdelete : Store.deleteRepos (((planned w.store.catalog svc sourced).deleted.filter
      isOrphaned).map (·.id)) w.store = (.ok (), w.store.tick) := by
    rw [hnobody]
    rfl
  have hmodify : Store.putRepos (stamp y.now (planned w.store.catalog svc sourced)).modified
      w.store.tick = (.ok [], w.store.tick) := by
    rw [hmodified]
    rfl
  have hadd : Store.putRepos (stamp y.now (planned w.store.catalog svc sourced)).added
      w.store.tick = (.ok [], w.store.tick) := by
    rw [hadded]
    rfl
  have hjoin : Store.editMembers (freshEdits y.now (planned w.store.catalog svc sourced) [] []
      (atStake w.store.catalog svc sourced)) w.store.tick = (.ok (), w.store.tick) := by
    change Store.editMembers { MembershipEdits.ofDiff d (atStake w.store.catalog svc sourced)
      with deleted := ∅ } w.store.tick = _
    rw [ofDiff_quiet hd]
    rfl
  exact ⟨d, _, applyBatch_of_writes hw.faults hs y least hstrip hdelete hmodify hadd hjoin,
    ⟨hw.faults, hw.going⟩, rfl, rfl, hd⟩

end Syncer

end RepoCatalog
