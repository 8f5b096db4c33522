import RepoCatalog.Proofs.Carried
import RepoCatalog.Proofs.Failures

/-!
# Passes without faults

As long as no fault strikes and nobody tells a pass to stop, nothing breaks it off, and a service of
the site reads its listing to the end.
-/
namespace RepoCatalog

open Step
open Time (Duration)

/-- No fault is to come any more, and nobody has told the pass to stop. -/
structure World.Calm (w : World) : Prop where
  faults : w.faults = []
  going : w.isCancelled = false

namespace Effect

/-- As long as all was calm, it still is. -/
def Calmly (w w' : World) : Prop :=
  w.Calm → w'.Calm

instance : Outward Calmly where
  refl _ h := h
  trans h h' hs := h' (h hs)
  store _ _ h := ⟨h.faults, h.going⟩
  call operation step := by
    intro w hw
    unfold call ofStore
    rw [hw.faults]
    simp only [Fault.strike]
    cases step w.store with
    | mk r s => cases r <;> exact ⟨rfl, hw.going⟩

end Effect

namespace Syncer

open Effect Catalog

variable {y : Syncer} {svc : Service} {w : World}

theorem calmly_publish (y : Syncer) (d : Diff) : Within Calmly (y.publish d) := by
  intro w hw
  unfold publish
  split
  · exact ⟨hw.faults, hw.going⟩
  · exact hw

theorem readListing_total (y : Syncer) (svc : Service) (known : Option (List Spec))
    (items : List Item) (hw : w.Calm) : ∃ listing w',
      y.readListing svc none known items w = (.ok listing, w') ∧ w'.Calm := by
  have hhook : ∀ repo, .ok repo ∈ items → ∀ r : Reading, r.world.Calm ∧ r.counter = none →
      ∃ t, y.listingHook svc repo r = (.ok (), t) ∧ t.world.Calm ∧ t.counter = none := by
    rintro repo - r ⟨hcalm, hcounter⟩
    have hcount : countListed r = (.ok (), r) := by
      unfold countListed
      rw [hcounter]
    unfold listingHook
    rw [bind_of_ok hcount]
    unfold insertEarly
    cases hknown : r.known with
    | none => exact ⟨r, rfl, hcalm, hcounter⟩
    | some specs =>
        by_cases hmem : repo.spec ∈ specs
        · simp only [hmem, if_true]
          exact ⟨r, rfl, hcalm, hcounter⟩
        · simp only [hmem, if_false]
          have hdefect := isError_insertIfNew y svc repo r.world
          have hcalmly : Within Calmly (y.insertIfNew svc repo) :=
            admits_insertIfNew (p := fun _ => True) (calmly_publish y) trivial
          have hafter := hcalmly r.world hcalm
          unfold attempt
          cases hrun : y.insertIfNew svc repo r.world with
          | mk outcome v =>
              rw [hrun] at hdefect hafter
              cases outcome with
              | ok u => exact ⟨_, rfl, hafter, hcounter⟩
              | error e =>
                  cases e with
                  | failed e => exact ⟨_, rfl, hafter, hcounter⟩
                  | defect d => exact (hdefect _ _ rfl).elim
  have hread : ∃ listing t, Listing.collect (y.listingHook svc)
      (fun r : Reading => r.world.isCancelled) (.failed .cancelled) y.settings.channelCapacity
        items ⟨w, none, known⟩ = (.ok listing, t) ∧
        t.world.Calm ∧ t.counter = none :=
    Listing.collect_total (I := fun r : Reading => r.world.Calm ∧ r.counter = none)
      (fun r hr => hr.1.going) hhook ⟨hw, rfl⟩
  obtain ⟨listing, t, hrun, hcalm, -⟩ := hread
  refine ⟨listing, t.world, ?_, hcalm⟩
  unfold readListing
  rw [hrun]

theorem knownFor_total (hw : w.Calm) (hs : w.store.catalog.Furnished) (counter : Option Counter) :
    ∃ known, y.knownFor counter w = (.ok known, w) := by
  unfold knownFor
  split
  · have hspecs : Store.listSpecs w.store = _ := Store.run_read hs.tables _ _
    exact ⟨_, bind_of_ok (run_store hw.faults _ _ hspecs)⟩
  · exact ⟨none, rfl⟩

theorem reading_total (hw : w.Calm) (hs : w.store.catalog.Furnished) (howner : svc.owner? = none)
    {items : List Item} (hsource : y.sourceOf svc = .ok items) : ∃ w',
      y.reading svc w = (.ok (.ofItems items), w') ∧ w'.Calm := by
  obtain ⟨known, hknown⟩ := knownFor_total (y := y) hw hs none
  obtain ⟨listing, w', hread, hcalm⟩ := readListing_total y svc known items hw
  refine ⟨w', ?_, hcalm⟩
  unfold reading
  rw [bind_of_ok (run_counterFor_of_site howner w), bind_of_ok hknown,
    bind_of_ok (run_itemsOf hsource w), hread, readListing_ok hread]

/-- Whether a quota was refused. -/
def IsQuota : Abort SyncError → Prop
  | .failed (.quota _) => True
  | _ => False

theorem counterFor_error (hw : w.Calm) (hs : w.store.catalog.Furnished) {e : Abort SyncError}
    {w' : World} (h : y.counterFor svc w = (.error e, w')) : IsQuota e := by
  unfold counterFor at h
  cases howner : svc.owner? with
  | none =>
      rw [howner] at h
      cases h
  | some user =>
      rw [howner] at h
      have hread : Store.countUserAdded [] w.store = _ := Store.run_read hs.tables _ _
      simp only [] at h
      rw [bind_of_ok (run_store hw.faults _ _ hread)] at h
      have hquota : ∀ r, Fails IsQuota (checkQuota r) :=
        fun r => Fails.mapError (fails_ofExcept fun _ _ => trivial)
      exact ((hquota _).bind fun _ => .pure _) _ e w' h

theorem readListing_error (hw : w.Calm) {counter : Option Counter} {known : Option (List Spec)}
    {items : List Item} {e : Abort SyncError} {w' : World}
    (h : y.readListing svc counter known items w = (.error e, w')) : IsQuota e := by
  obtain ⟨t, hrun, -⟩ := readListing_run h
  have hhook : ∀ repo, Fails IsQuota (y.listingHook svc repo) := fun repo =>
    fails_listingHook y svc repo (fun _ => trivial) fun v d v' hbreaks =>
      (isError_insertIfNew y svc repo v _ v' hbreaks).elim
  refine Listing.collect_error_of_going (R := OnWorld Calmly) (fun repo _ => ?_)
    (fun t ht => (ht hw).going) hhook hrun
  exact within_listingHook (admits_insertIfNew (p := fun _ => True) (calmly_publish y) trivial)

theorem reading_error (hw : w.Calm) (hs : w.store.catalog.Furnished) {items : List Item}
    (hsource : y.sourceOf svc = .ok items) {e : Abort SyncError} {w' : World}
    (h : y.reading svc w = (.error e, w')) : IsQuota e := by
  unfold reading at h
  rcases bind_cases h with ⟨e', hcounter, he⟩ | ⟨counter, v, hcounter, hrest⟩
  · cases he
    exact counterFor_error hw hs hcounter
  · have hv : v.Calm := (asks_counterFor (R := Calmly) y svc).of_run hcounter hw
    have hstore : v.store = w.store := (asks_counterFor (R := SameStore) y svc).of_run hcounter
    obtain ⟨known, hknown⟩ := knownFor_total (y := y) hv (by rw [hstore]; exact hs) counter
    rw [bind_of_ok hknown, bind_of_ok (run_itemsOf hsource v)] at hrest
    exact readListing_error hv hrest

theorem calmly_recordVisit (y : Syncer) (svc : Service) (interval : Duration) :
    Within Calmly (y.recordVisit svc interval) :=
  within_recordVisit y svc interval fun _ _ => outward_store _ _ _

theorem calmly_applyBatch (y : Syncer) (svc : Service) (sourced : List Repo) (least : Duration) :
    Within Calmly (y.applyBatch svc sourced least) :=
  admits_applyBatch (p := fun _ => True) y svc (fun _ _ => trivial) least fun _ _ =>
    outward_store _ _ _

/-- A batch pass of a service of the site ends well if and only if its writes do, and then it leaves
what they have written. -/
theorem run_batch (hw : w.Calm) (hs : w.store.catalog.Furnished) (howner : svc.owner? = none)
    {sourced : List Repo} (hsource : y.sourceOf svc = .ok (sourced.map .ok)) (least : Duration) :
    ∃ v, (y.reading svc w).2 = v ∧ v.Calm ∧
      ((∃ d v', y.applyBatch svc sourced least { v with store := opened v.store } = (.ok d, v')) →
        ∃ w', y.batch svc least w = (.ok (), w')) ∧
      ∀ w', y.batch svc least w = (.ok (), w') → ∃ d v',
        y.applyBatch svc sourced least { v with store := opened v.store } = (.ok d, v') ∧
          w'.store.catalog = v'.store.catalog := by
  obtain ⟨v, hread, hv⟩ := reading_total hw hs howner hsource
  refine ⟨v, by rw [hread], hv, ?_⟩
  have hallowed : y.allowsPrivate svc v = (.ok true, v) := by
    unfold allowsPrivate
    rw [howner]
    rfl
  have hjudged : (Effect.ofExcept (judge svc ⟨sourced, []⟩) : Pass _) v =
      (.ok (sourced, none), v) := rfl
  rw [batch_eq, bind_of_ok hread, ofItems_repos, bind_of_ok hjudged]
  simp only []
  rw [bind_of_ok hallowed]
  simp only [if_true]
  cases hrun : y.applyBatch svc sourced least { v with store := opened v.store } with
  | mk r v' =>
      have hv' : v'.Calm := (calmly_applyBatch y svc sourced least).of_run hrun
        ⟨hv.faults, hv.going⟩
      cases r with
      | ok d =>
          rw [bind_of_ok (run_transaction_ok hv.faults hrun hv'.faults)]
          obtain ⟨u, hpublish⟩ := publish_total y d
            { v' with store := { v'.store with saved := v'.store.saved.tail } }
          have hstore : u.store = _ := (still_publish y d).of_run hpublish
          rw [bind_of_ok hpublish]
          refine ⟨fun _ => ⟨u, rfl⟩, fun w' hw' => ⟨d, v', rfl, ?_⟩⟩
          cases hw'
          rw [hstore]
      | error e =>
          obtain ⟨e', u, hfail⟩ := run_transaction_error hv.faults hrun
          rw [bind_of_error hfail]
          constructor
          · rintro ⟨d, u', hu'⟩
            cases hu'
          · intro w' hw'
            cases hw'

end Syncer

end RepoCatalog
