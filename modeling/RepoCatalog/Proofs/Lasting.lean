import Mathlib.Logic.Relation
import RepoCatalog.Proofs.Bystanders

/-!
# Ids last

An identity that has a row in the catalog keeps it. Batch passes of any services revise the row,
make a tombstone of it and bring it back, and it remains the only row of its identity, under the id
that it was given first.
-/
namespace RepoCatalog

open Step
open Time (Duration)

namespace Catalog

/-- Every row is still there, under its id and with its identity. -/
def Abides (c d : Catalog) : Prop :=
  ∀ j old, c.repos.get? j = some old → ∃ row, d.repos.get? j = some row ∧ row.spec = old.spec

variable {c d e : Catalog} {svc : Service} {listed : List Repo} {diff : Diff}

theorem Abides.of_repos (h : d.repos = c.repos) : Abides c d := by
  intro j old hold
  exact ⟨old, h ▸ hold, rfl⟩

theorem Abides.trans (h : Abides c d) (h' : Abides d e) : Abides c e := by
  intro j old hold
  obtain ⟨row, hrow, hspec⟩ := h j old hold
  obtain ⟨row', hrow', hspec'⟩ := h' j row hrow
  exact ⟨row', hrow', hspec'.trans hspec⟩

theorem Filled.abides (h : Filled c svc listed d) : Abides c d := by
  intro j old hold
  obtain ⟨row, hrow, hspec, -⟩ := h.rows j old hold
  exact ⟨row, hrow, hspec⟩

theorem Batched.abides (h : Batched c svc diff e) : Abides c e := by
  intro j old hold
  by_cases hwritten : ∃ x ∈ diff.modified ++ diff.added, x.spec = old.spec
  case pos =>
    obtain ⟨x, hx, hspec⟩ := hwritten
    obtain ⟨w, hw⟩ := h.written x hx
    have hid : j = w.id := Placed.ownSpec hw.landed j old hold hspec.symm
    exact ⟨w.row, hid ▸ hw.row, hw.landed.spec.trans hspec⟩
  case neg =>
    by_cases horphan : Orphans diff j
    · obtain ⟨⟨row, hrow, -, hspec⟩, -⟩ := h.orphaned j old hold horphan
      exact ⟨row, hrow, hspec⟩
    · have hother : ∀ x ∈ diff.modified ++ diff.added, x.spec ≠ old.spec :=
        fun x hx hspec => hwritten ⟨x, hx, hspec⟩
      exact ⟨old, (h.standing j old hold hother horphan).1, rfl⟩

end Catalog

namespace Syncer

open Effect Catalog

variable {y : Syncer} {svc : Service} {least : Duration} {w : World}

/-- Whatever a source sends, the reading of it only fills the catalog. -/
theorem exists_fills_reading (y : Syncer) (svc : Service) (c : Catalog) :
    ∃ listed, Within (Fills svc listed) (y.reading svc) := by
  cases hsource : y.sourceOf svc with
  | ok items => exact ⟨_, fills_reading hsource c⟩
  | error e =>
      refine ⟨[], asks_reading ?_⟩
      intro items hitems
      rw [hsource] at hitems
      cases hitems

theorem abides_batch (hc : w.store.catalog.Rooted) (hsvc : w.store.catalog.Holds svc)
    (hlists : ∀ items, y.sourceOf svc = .ok items → ∀ r, .ok r ∈ items → r.ListedBy svc) :
    Abides w.store.catalog (y.batch svc least w).2.store.catalog := by
  obtain ⟨listed, hfills⟩ := exists_fills_reading y svc w.store.catalog
  have hfilled := hfills w hc.furnished
  apply hfilled.abides.trans
  cases hrun : y.batch svc least w with
  | mk r w' =>
  rcases batch_cases hrun with ⟨-, hleft⟩ | ⟨-, d, hcommitted⟩
  · exact .of_repos (by rw [hleft.catalog])
  · obtain ⟨items, sourced, failure, allowed, u, u', hitems, hjudge, -, -, hu, hbody, hcatalog⟩ :=
      hcommitted.written
    have hrooted : u.store.catalog.Rooted := by
      rw [hu]
      exact hc.of_writes (wrote_reading y svc w).catalog
    have hholds : u.store.catalog.Holds svc := by
      rw [hu]
      exact hsvc.of_sameSetting hfilled.setting
    have hproper : ∀ x ∈ if allowed then sourced else sourced.filter fun x => !x.isPrivate,
        x.ListedBy svc := by
      intro x hx
      apply hlists items hitems x
      exact ok_of_judge hjudge x (mem_of_allowed hx)
    have hcarried := applyBatch_ok hrooted.furnished
      (Int.ne_of_gt (hholds.range hrooted.furnished).1) hbody
    rw [← hu, hcatalog]
    exact (batched hrooted hholds (feasible_plan hproper) hcarried).abides

theorem abides_visit (hc : w.store.catalog.Rooted) (hbatch : y.isStreaming = false) {id : Int}
    (hbrings : y.Brings Repo.ListedBy w (.visit id least)) :
    Abides w.store.catalog (y.perform (.visit id least) w).2.store.catalog := by
  rcases visit_cases hc.furnished y id least with hsame | ⟨svc, v, hsame, hsvc, hid, hend⟩
  · exact .of_repos (by rw [hsame])
  · have hlists := hbrings svc hsvc hid
    simp only [hend, hbatch, Bool.false_eq_true, if_false]
    rw [← hsame] at hc hsvc ⊢
    exact abides_batch hc hsvc hlists

end Syncer

namespace Catalog

/-- What happens to a catalog that batch passes fill: something changes that is no repository, a
repository is inserted early, or a whole pass is made, however it ends. The early insertions of a
pass that is still under way count one by one, so that other passes may come in between. -/
inductive BatchStep : Catalog → Catalog → Prop where
  | elsewhere {c d : Catalog} :
      d.repos = c.repos → d.members = c.members → d.Furnished → BatchStep c d
  | insert {w : World} (y : Syncer) (svc : Service) (r : Repo) :
      BatchStep w.store.catalog (y.insertIfNew svc r w).2.store.catalog
  | visit {w : World} (y : Syncer) (service : Int) (least : Duration) :
      y.isStreaming = false → y.Brings Repo.ListedBy w (.visit service least) →
        BatchStep w.store.catalog (y.perform (.visit service least) w).2.store.catalog

variable {c d : Catalog}

theorem BatchStep.rooted (h : BatchStep c d) (hc : c.Rooted) : d.Rooted := by
  cases h with
  | elsewhere hrepos hmembers hfurnished =>
      exact ⟨hfurnished, hrepos ▸ hc.lastId, hrepos ▸ hc.ids⟩
  | @insert w y svc r => exact hc.of_writes (Syncer.wrote_insertIfNew y svc r w).catalog
  | visit y service least hbatch hbrings =>
      have hnames := hbrings.mono (q := fun _ _ => True) fun _ _ _ => trivial
      exact hc.of_writes (Syncer.wrote_perform (p := fun _ => True) hc.furnished hnames).catalog

theorem BatchStep.abides (h : BatchStep c d) (hc : c.Rooted) : Abides c d := by
  cases h with
  | elsewhere hrepos hmembers hfurnished => exact .of_repos hrepos
  | @insert w y svc r =>
      have hfills : Within (Effect.Fills svc [r]) (y.insertIfNew svc r) :=
        Syncer.fills_insertIfNew y List.mem_cons_self
      exact (hfills w hc.furnished).abides
  | visit y service least hbatch hbrings => exact Syncer.abides_visit hc hbatch hbrings

theorem rooted_of_batchSteps (h : Relation.ReflTransGen BatchStep c d) (hc : c.Rooted) :
    d.Rooted := by
  induction h with
  | refl => exact hc
  | tail _ hstep ih => exact hstep.rooted ih

theorem abides_of_batchSteps (h : Relation.ReflTransGen BatchStep c d) (hc : c.Rooted) :
    Abides c d := by
  induction h with
  | refl => exact .of_repos rfl
  | tail hbefore hstep ih => exact ih.trans (hstep.abides (rooted_of_batchSteps hbefore hc))

/-- Once an identity has a row, it has exactly one in every later catalog, under the same id. -/
theorem row_of_spec_lasts {p : Service → Repo → Prop} {start : Catalog} (hstart : Reachable p start)
    (hbefore : Relation.ReflTransGen BatchStep start c) {j : Int} {old : RepoRow}
    (hold : c.repos.get? j = some old) (hafter : Relation.ReflTransGen BatchStep c d) :
    ∀ i, (∃ row, d.repos.get? i = some row ∧ row.spec = old.spec) ↔ i = j := by
  have hc : c.Rooted := rooted_of_batchSteps hbefore hstart.rooted
  obtain ⟨row, hrow, hspec⟩ := abides_of_batchSteps hafter hc j old hold
  intro i
  constructor
  · rintro ⟨other, hother, hsame⟩
    exact spec_inj hother hrow (hsame.trans hspec.symm)
  · rintro rfl
    exact ⟨row, hrow, hspec⟩

end Catalog

namespace Catalog

open Sample in
/-- The host loses a repository to a copy of a smaller identity, which has the same name, and brings
it back under another name. -/
theorem row_of_spec_lasts_renamed :
    let w₁ := ((syncer [.ok (entry "2" "alpha")]).perform (.visit 1 ⟨0⟩) mirrored).2
    let w₂ := ((syncer [.ok (copy "1" "Alpha")]).perform (.visit 2 ⟨0⟩) w₁).2
    let w₃ := ((syncer [.ok (entry "2" "beta")]).perform (.visit 1 ⟨0⟩) w₂).2
    (w₂.store.catalog.repos.get? 1).map (·.isLive) = some false ∧
      (w₃.store.catalog.repos.get? 1).map (·.isLive) = some true ∧
      ∃ old, w₁.store.catalog.repos.get? 1 = some old ∧ old.spec = (entry "2" "alpha").spec ∧
        ∀ i, (∃ row, w₃.store.catalog.repos.get? i = some row ∧ row.spec = old.spec) ↔ i = 1 := by
  intro w₁ w₂ w₃
  have hstart : Reachable Repo.ListedBy mirrored.store.catalog := .start rfl rfl furnished_mirrored
  have hgiven : BatchStep mirrored.store.catalog w₁.store.catalog :=
    .visit _ 1 _ rfl (brings_one hub (by decide +kernel) (entry_listedBy "2" "alpha"))
  have hlost : BatchStep w₁.store.catalog w₂.store.catalog :=
    .visit _ 2 _ rfl (brings_one mirror (by decide +kernel) ⟨rfl, rfl, "Alpha", rfl⟩)
  have hback : BatchStep w₂.store.catalog w₃.store.catalog :=
    .visit _ 1 _ rfl (brings_one hub (by decide +kernel) (entry_listedBy "2" "beta"))
  have hspec : (w₁.store.catalog.repos.get? 1).map (·.spec) = some (entry "2" "alpha").spec := by
    decide +kernel
  obtain ⟨old, hold, hsame⟩ := Option.map_eq_some_iff.mp hspec
  refine ⟨by decide +kernel, by decide +kernel, old, hold, hsame, ?_⟩
  exact row_of_spec_lasts hstart (.single hgiven) hold (.tail (.single hlost) hback)

end Catalog

end RepoCatalog
