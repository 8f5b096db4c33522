import RepoCatalog.Proofs.Success

/-!
# Batch passes converge

After a batch pass that ends well, a service offers exactly what the winners of its listing say.
-/
namespace RepoCatalog

open Step
open Time (Duration)

namespace Sample

/-- The names are in order already, so an identity counts where it is listed first. -/
theorem first?_crowded (spec : Spec) :
    Syncer.first? crowded spec = crowded.find? (·.spec == spec) := by
  have hsort : Repo.sort crowded = crowded := List.mergeSort_of_pairwise (by decide)
  unfold Syncer.first?
  rw [hsort]

theorem lowerName_crowded {r : Repo} (hr : r ∈ crowded) :
    r.lowerName = Text.Ascii.lower r.name :=
  Syncer.lowerName_of_wellFormed (wellFormed_crowded r hr)

theorem leads_crowded {r : Repo} :
    Syncer.Leads crowded r ↔ r = entry "5" "Alpha" ∨ r = entry "8" "Beta" := by
  constructor
  · intro hleads
    have hfirst := hleads.1
    have hr := hleads.mem
    rw [first?_crowded] at hfirst
    simp only [crowded, List.mem_cons, List.not_mem_nil, or_false] at hr
    rcases hr with rfl | rfl | rfl | rfl
    · exact .inl rfl
    · exact .inr rfl
    · exact absurd hfirst (by decide)
    · refine absurd (?_ : (entry "5" "Alpha").spec < (entry "7" "alpha").spec)
        (hleads.2 (entry "5" "Alpha") ?_ ?_)
      · decide
      · rw [first?_crowded]
        rfl
      · rw [lowerName_crowded (by simp [crowded]), lowerName_crowded (by simp [crowded])]
        decide
  · have hleast : ∀ r ∈ [entry "5" "Alpha", entry "8" "Beta"], r ∈ crowded ∧
        crowded.find? (·.spec == r.spec) = some r ∧
        ∀ x ∈ crowded, Text.Ascii.lower x.name = Text.Ascii.lower r.name → ¬x.spec < r.spec := by
      decide
    intro hr
    obtain ⟨hmem, hfirst, hsmaller⟩ := hleast r (List.mem_pair.mpr hr)
    refine ⟨(first?_crowded _).trans hfirst, fun x hx hsame => ?_⟩
    have hlisted := (Syncer.first?_some hx).1
    rw [lowerName_crowded hlisted, lowerName_crowded hmem] at hsame
    exact hsmaller x hlisted hsame

/-- Of the two that lead, one is held up by the copy that has its name. -/
theorem winner_crowded {r : Repo} :
    Syncer.Winner stocked.store.catalog hub crowded r ↔ r = entry "5" "Alpha" := by
  constructor
  · rintro ⟨hleads, hfree⟩
    rcases leads_crowded.mp hleads with rfl | rfl
    · rfl
    · obtain ⟨row, hrow, hlive, hkey, hlt, hunheld, hunlisted⟩ :
          ∃ row, stocked.store.catalog.repos.get? 2 = some row ∧ row.isLive = true ∧
            row.nameKey = Text.Ascii.lower (entry "8" "Beta").name ∧
            row.spec < (entry "8" "Beta").spec ∧
            stocked.store.catalog.members.get? ⟨2, hub.id⟩ = none ∧
            ∀ x ∈ crowded, x.spec ≠ row.spec :=
        ⟨(stocked.store.catalog.repos.get? 2).get (by decide), by simp, by decide⟩
      rw [← lowerName_crowded hleads.mem] at hkey
      rcases hfree 2 row hrow hlive hkey hlt with ⟨m, hm⟩ | ⟨x, hx, hspec⟩
      · cases hunheld.symm.trans hm
      · exact absurd hspec (hunlisted x hx)
  · rintro rfl
    have hlarger : ∀ e ∈ stocked.store.catalog.repos.toList,
        e.2.nameKey = Text.Ascii.lower "Alpha" → ¬e.2.spec < (entry "5" "Alpha").spec := by
      decide
    have hleads := leads_crowded.mpr (.inl rfl)
    refine ⟨hleads, fun j row hrow _ hkey hlt => ?_⟩
    rw [lowerName_crowded hleads.mem] at hkey
    exact absurd hlt (hlarger (j, row) (Table.get?_eq_some_iff.mp hrow) hkey)

end Sample

namespace Catalog

open Syncer

/-- A batch pass that ends well leaves the service with exactly what the winners of its listing say,
all of it live. -/
theorem batch_converges {y : Syncer} {svc : Service} {sourced : List Repo} {least : Duration}
    {w w' : World} (hreach : Reachable Repo.ListedBy w.store.catalog)
    (hsvc : w.store.catalog.Holds svc) (hinsert : y.settings.streamingInsert = false)
    (hsource : y.sourceOf svc = .ok (sourced.map .ok)) (hwell : ∀ r ∈ sourced, r.WellFormed svc)
    (hrun : y.batch svc least w = (.ok (), w')) :
    (∀ f, w'.store.catalog.Offers svc f ↔
      ∃ r, Winner w.store.catalog svc (y.visible w.store.catalog svc sourced) r ∧
        r.faceFor svc = some f) ∧
    ∀ j m, w'.store.catalog.members.get? ⟨j, svc.id⟩ = some m →
      ∃ row, w'.store.catalog.repos.get? j = some row ∧ row.isLive = true := by
  have hc := hreach.tidy
  have hwell' : ∀ r ∈ y.visible w.store.catalog svc sourced, r.WellFormed svc :=
    fun r hr => hwell r (visible_subset hr)
  have hcarried := batch_ok hc.furnished (Int.ne_of_gt (hsvc.range hc.furnished).1) hinsert hsource
    hrun
  have hd := feasible_plan (c := w.store.catalog) fun r hr => (hwell' r hr).toListedBy
  have hbatched := batched hc.toRooted hsvc hd hcarried
  refine ⟨fun f => ⟨winner_of_offers hsvc hwell' hbatched hc.toRooted, ?_⟩, fun j m hm => ?_⟩
  · rintro ⟨r, hwinner, hf⟩
    exact offers_of_winner hsvc hwell' hbatched hwinner hf
  · obtain ⟨row, hrow⟩ := repo_of_member hm
    exact ⟨row, hrow, ((hc.batched hsvc hd hbatched).claimed j row hrow).mpr ⟨svc.id, m, hm⟩⟩

theorem batch_converges_first :
    let y := Sample.syncer (Sample.crowded.map .ok)
    ∃ w', y.batch Sample.hub ⟨0⟩ Sample.stocked = (.ok (), w') ∧
      (∀ f, w'.store.catalog.Offers Sample.hub f ↔
        (Sample.entry "5" "Alpha").faceFor Sample.hub = some f) ∧
      ∀ j m, w'.store.catalog.members.get? ⟨j, Sample.hub.id⟩ = some m →
        ∃ row, w'.store.catalog.repos.get? j = some row ∧ row.isLive = true := by
  intro y
  obtain ⟨w', hrun⟩ := Sample.ends_crowded
  obtain ⟨hoffers, hlive⟩ := batch_converges Sample.reachable_stocked Sample.holds_stocked rfl rfl
    Sample.wellFormed_crowded hrun
  refine ⟨w', hrun, fun f => (hoffers f).trans ?_, hlive⟩
  constructor
  · rintro ⟨r, hwinner, hf⟩
    rwa [Sample.winner_crowded.mp hwinner] at hf
  · exact fun hf => ⟨_, Sample.winner_crowded.mpr rfl, hf⟩

end Catalog

end RepoCatalog
