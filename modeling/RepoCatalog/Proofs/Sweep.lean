import RepoCatalog.Proofs.Bystanders

/-!
# What a sweep takes

A sweep takes from a service all repositories but those that are to be kept, and nothing else. The
repositories are taken in parts; whether one is still claimed is decided after its own part, which
comes to the same as deciding it in the end, because no other part touches its memberships.
-/
namespace RepoCatalog

open Time (Instant)

namespace Catalog

/-- What the catalog `d` holds once a sweep at `now` has answered that the service lost the
repositories `ids` in `c`. -/
structure Cleared (c : Catalog) (service : Int) (keep : List Int) (now : Instant) (ids : List Int)
    (d : Catalog) : Prop where
  increasing : ids.Pairwise (· < ·)
  lost : ∀ id, id ∈ ids ↔ (∃ m, c.members.get? ⟨id, service⟩ = some m) ∧ id ∉ keep
  gone : ∀ id ∈ ids, d.members.get? ⟨id, service⟩ = none
  stays : ∀ k, ¬(k.service = service ∧ k.repo ∈ ids) → d.members.get? k = c.members.get? k
  /-- A live repository that was lost and that nobody claims any more becomes a tombstone. -/
  buried : ∀ id row, c.repos.get? id = some row → row.isLive = true → id ∈ ids →
    (∀ s, d.members.get? ⟨id, s⟩ = none) →
      d.repos.get? id = some { row with deletedAt := some now, updatedAt := now }
  /-- All other rows are as they were. -/
  rest : ∀ id, (id ∈ ids → (∃ s m, d.members.get? ⟨id, s⟩ = some m) ∨
    ∀ row, c.repos.get? id = some row → row.isLive = false) → d.repos.get? id = c.repos.get? id
  lastId : d.repos.lastId = c.repos.lastId
  setting : SameSetting c d

theorem bury_of_live (now : Instant) {row : RepoRow} (h : row.isLive = true) :
    bury now row = { row with deletedAt := some now, updatedAt := now } := by
  rw [bury, if_pos h]

theorem bury_of_dead (now : Instant) {row : RepoRow} (h : row.isLive = false) :
    bury now row = row := by
  rw [bury, if_neg (Bool.eq_false_iff.mp h)]

theorem isClaimed_eq_false_iff {c : Catalog} {repo : Int} :
    c.isClaimed repo = false ↔ ∀ s, c.members.get? ⟨repo, s⟩ = none := by
  rw [← Bool.not_eq_true, isClaimed_iff]
  constructor
  · intro h s
    exact Option.eq_none_iff_forall_ne_some.mpr fun m hm => h ⟨s, m, hm⟩
  · rintro h ⟨s, m, hm⟩
    cases (h s).symm.trans hm

theorem Released.cleared {c d : Catalog} {service : Int} {keep ids : List Int} {now : Instant}
    (h : Released c service now ids d) (hincreasing : ids.Pairwise (· < ·))
    (hlost : ∀ id, id ∈ ids ↔ (∃ m, c.members.get? ⟨id, service⟩ = some m) ∧ id ∉ keep) :
    Cleared c service keep now ids d where
  increasing := hincreasing
  lost := hlost
  gone id hid := by rw [h.members, if_pos ⟨rfl, hid⟩]
  stays k hk := by rw [h.members, if_neg hk]
  buried id row hrow hlive hid hnone := by
    rw [h.repos, hrow, Option.map_some, if_pos ⟨hid, isClaimed_eq_false_iff.mpr hnone⟩,
      bury_of_live now hlive]
  rest id hother := by
    rw [h.repos]
    refine (Option.map_congr fun row hrow => ?_).trans Option.map_id'
    split
    · rename_i hburied
      rcases hother hburied.1 with ⟨s, m, hm⟩ | hdead
      · cases (isClaimed_eq_false_iff.mp hburied.2 s).symm.trans hm
      · exact bury_of_dead now (hdead row hrow)
    · rfl
  lastId := h.lastId
  setting := h.setting

end Catalog

namespace Store

variable {s : Store}

/-- A sweep answers with exactly the repositories that the service held and that are not to be kept,
in increasing order, and takes exactly these from it, however many they are. -/
theorem sweep_exact (hs : s.catalog.Complete) (svc : Service) (keep : List Int) :
    ∃ ids t, sweep svc keep s = (.ok ids, t) ∧
      s.catalog.Cleared svc.id keep s.clock ids t.catalog ∧ t.saved = s.saved := by
  obtain ⟨t, hrun, hreleased, hsaved⟩ := run_sweep_released hs svc keep
  refine ⟨_, t, hrun, hreleased.cleared ?_ fun id => ?_, hsaved⟩
  · exact (Catalog.pairwise_reposOf _ _).filter _
  · simp [Catalog.mem_reposOf]

/-- The host holds three repositories, the second one together with its mirror. -/
def Sample.shared : Store :=
  let fill : StoreM Unit := do
    let _ ← createMember RepoCatalog.Sample.hub (RepoCatalog.Sample.entry "1" "alpha")
    let beta ← createMember RepoCatalog.Sample.hub (RepoCatalog.Sample.entry "2" "beta")
    let copy := RepoCatalog.Sample.copy "2" "beta"
    updateMember RepoCatalog.Sample.mirror { copy with id := beta.id }
    let _ ← createMember RepoCatalog.Sample.hub (RepoCatalog.Sample.entry "3" "gamma")
  (fill RepoCatalog.Sample.mirrored.store).2

/-- The host only keeps its third repository: the first one becomes a tombstone, the second one stays
with the mirror. -/
theorem sweep_exact_shared :
    Sample.shared.catalog.Complete ∧
      ∃ t, sweep RepoCatalog.Sample.hub [3] Sample.shared = (.ok [1, 2], t) ∧
        Sample.shared.catalog.Cleared RepoCatalog.Sample.hub.id [3] Sample.shared.clock [1, 2]
          t.catalog ∧
        (t.catalog.repos.get? 1).map RepoRow.isLive = some false ∧
        (t.catalog.repos.get? 2).map RepoRow.isLive = some true := by
  have hcomplete : Sample.shared.catalog.Complete := by
    intro table
    cases table <;> decide
  have hids : (sweep RepoCatalog.Sample.hub [3] Sample.shared).1 = .ok [1, 2] := by
    decide +kernel
  have hlive : ((sweep RepoCatalog.Sample.hub [3] Sample.shared).2.catalog.repos.get? 1).map
        RepoRow.isLive = some false ∧
      ((sweep RepoCatalog.Sample.hub [3] Sample.shared).2.catalog.repos.get? 2).map
        RepoRow.isLive = some true := by
    decide +kernel
  obtain ⟨ids, t, hrun, hcleared, -⟩ := sweep_exact hcomplete RepoCatalog.Sample.hub [3]
  rw [hrun] at hids hlive
  cases hids
  exact ⟨hcomplete, t, hrun, hcleared, hlive⟩

end Store

end RepoCatalog
