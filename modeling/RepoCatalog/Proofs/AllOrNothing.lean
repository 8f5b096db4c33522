import RepoCatalog.Proofs.Calm
import RepoCatalog.Proofs.Failures

/-!
# All or nothing

A batch pass either commits, and then it ends well or reports a bare failure of credentials, or it
leaves tables and audience alone, whatever the store was like, wherever a fault struck and whenever
the pass was cancelled. What is done for a single repository is done as a whole or not at all.
-/
namespace RepoCatalog

open Step
open Time (Duration)

namespace Catalog

theorem addService_row {c d : Catalog} {row : ServiceRow} {id : Int}
    (h : c.addService row = .ok (id, d)) : d.services.get? id = some row := by
  unfold addService at h
  split at h
  · cases h
    rw [Table.get?_append, if_pos rfl]
  · cases h

theorem changeService_row {c d : Catalog} {id : Int} {f : ServiceRow → ServiceRow} {u : Unit}
    (h : c.changeService id f = .ok (u, d)) : ∃ old, d.services.get? id = some (f old) := by
  unfold changeService at h
  split at h
  · cases h
  · rename_i row hrow
    split at h
    · cases h
      refine ⟨row, ?_⟩
      rw [Table.get?_modify, if_pos rfl, hrow]
      rfl
    · cases h

theorem addService_keeps {c d : Catalog} {row : ServiceRow} {id : Int}
    (h : c.addService row = .ok (id, d)) : d.repos = c.repos ∧ d.members = c.members := by
  unfold addService at h
  split at h
  · cases h
    exact ⟨rfl, rfl⟩
  · cases h

theorem changeService_keeps {c d : Catalog} {id : Int} {f : ServiceRow → ServiceRow} {u : Unit}
    (h : c.changeService id f = .ok (u, d)) : d.repos = c.repos ∧ d.members = c.members := by
  unfold changeService at h
  split at h
  · cases h
  · split at h
    · cases h
      exact ⟨rfl, rfl⟩
    · cases h

end Catalog

namespace Store

theorem putService_keeps {s t : Store} {svc svc' : Service}
    (h : putService svc s = (.ok svc', t)) :
    t.catalog.repos = s.catalog.repos ∧ t.catalog.members = s.catalog.members := by
  cases (putService_put h).1 with
  | added _ hadd => exact Catalog.addService_keeps hadd
  | changed _ _ hchange => exact Catalog.changeService_keeps hchange

theorem putService_row {s t : Store} {svc svc' : Service} (h : putService svc s = (.ok svc', t)) :
    (svc.id ≠ 0 → svc'.id = svc.id) ∧
      t.catalog.services.get? svc'.id = some (svc.rowAt s.clock) := by
  cases (putService_put h).1 with
  | added hid hadd => exact ⟨fun hne => absurd hid hne, Catalog.addService_row hadd⟩
  | changed _ hsame hchange =>
      obtain ⟨old, hrow⟩ := Catalog.changeService_row hchange
      exact ⟨fun _ => hsame, hsame ▸ hrow⟩

end Store

theorem Diff.hasChanges_sort (d : Diff) : d.sort.hasChanges = d.hasChanges := by
  have hsort : ∀ rs : List Repo, (Repo.sort rs).isEmpty = rs.isEmpty := by
    intro rs
    unfold Repo.sort
    rw [Bool.eq_iff_iff, List.isEmpty_iff_length_eq_zero, List.isEmpty_iff_length_eq_zero,
      List.length_mergeSort]
  unfold hasChanges sort
  simp only [hsort]

namespace Effect

/-- Nothing was published. -/
def Silent (w w' : World) : Prop :=
  w'.published = w.published

instance : Outward Silent where
  refl _ := rfl
  trans h h' := Eq.trans h' h
  store _ _ := rfl
  call operation step := by
    intro w
    unfold call ofStore Silent
    cases Fault.strike operation w.faults with
    | mk faults struck =>
        cases struck with
        | none =>
            simp only []
            split <;> rfl
        | some fault =>
            simp only []
            split
            · rfl
            · split <;> rfl

end Effect

namespace Syncer

open Effect Catalog

variable {y : Syncer} {svc : Service} {least : Duration} {w w' : World}

/-- Tables and audience are as they were. -/
structure Untouched (w w' : World) : Prop where
  catalog : w'.store.catalog = w.store.catalog
  saved : w'.store.saved = w.store.saved
  published : w'.published = w.published

/-- How a batch pass ends that had this failure of credentials to report. -/
def concluded : Option SyncError → Except (Abort SyncError) Unit
  | none => .ok ()
  | some failure => .error (.failed failure)

/-- Whether a batch pass that ends so has committed. -/
def hasCommitted : Except (Abort SyncError) Unit → Bool
  | .ok _ => true
  | .error (.failed e) => e.isCredentialReport
  | .error (.defect _) => false

/-- A batch pass that had read its listing in the world `v` and ended in `w'` with the outcome `r`
has written its batch as a whole, with the difference `d`, and has told its audience of it. -/
structure Committed (y : Syncer) (svc : Service) (least : Duration) (v : World)
    (r : Except (Abort SyncError) Unit) (d : Diff) (w' : World) : Prop where
  written : ∃ items sourced failure, ∃ allowed : Bool, ∃ u u',
    y.sourceOf svc = .ok items ∧ judge svc (.ofItems items) = .ok (sourced, failure) ∧
    r = concluded failure ∧ (v.store.catalog.Furnished → allowed = y.sees v.store.catalog svc) ∧
    u.store.catalog = v.store.catalog ∧
    y.applyBatch svc (if allowed then sourced else sourced.filter fun r => !r.isPrivate) least u =
      (.ok d, u') ∧
    w'.store.catalog = u'.store.catalog
  saved : w'.store.saved = v.store.saved
  published : w'.published =
    if y.audience = .listening ∧ !w'.isCancelled then v.published ++ [d] else v.published

theorem hasCommitted_concluded {listing : Listing} {sourced : List Repo}
    {failure : Option SyncError} (h : judge svc listing = .ok (sourced, failure)) :
    hasCommitted (concluded failure) = true := by
  unfold judge at h
  split at h
  · cases h
    rfl
  · simp only [] at h
    split at h
    · rename_i f hf
      cases h
      exact SyncError.isCredentialReport_of_failure hf
    · cases h

theorem not_hasCommitted {α : Type} {x : Pass α} (hx : Fails Abort.Genuine x)
    {e : Abort SyncError} (h : x w = (.error e, w')) : hasCommitted (.error e) = false := by
  cases e with
  | failed e => exact hx w _ w' h
  | defect d => rfl

theorem recordVisit_row {interval : Duration} {u : Unit}
    (h : y.recordVisit svc interval w = (.ok u, w')) :
    ∃ id row next, (svc.id ≠ 0 → id = svc.id) ∧
      w'.store.catalog.services.get? id = some row ∧ row.lastSyncAt = some y.now ∧
      y.now.add? interval = some next ∧ row.nextSyncAt = some next := by
  obtain ⟨next, svc', hnext, hput⟩ := recordVisit_put h
  obtain ⟨hid, hrow⟩ := Store.putService_row hput
  exact ⟨svc'.id, _, next, hid, hrow, rfl, hnext, rfl⟩

theorem recordVisit_keeps {interval : Duration} {u : Unit}
    (h : y.recordVisit svc interval w = (.ok u, w')) :
    w'.store.catalog.repos = w.store.catalog.repos ∧
      w'.store.catalog.members = w.store.catalog.members := by
  obtain ⟨next, svc', -, hput⟩ := recordVisit_put h
  exact Store.putService_keeps hput

theorem recordVisit_of_applyBatch {sourced : List Repo} {d : Diff}
    (h : y.applyBatch svc sourced least w = (.ok d, w')) :
    ∃ v, y.recordVisit svc (Resync.afterBatch y.now svc.lastSyncAt least d) v = (.ok (), w') := by
  unfold applyBatch at h
  obtain ⟨held, w₁, -, h⟩ := bind_ok_iff.mp h
  obtain ⟨found, w₂, -, h⟩ := bind_ok_iff.mp h
  obtain ⟨⟨⟩, w₃, -, h⟩ := bind_ok_iff.mp h
  obtain ⟨⟨⟩, w₄, -, h⟩ := bind_ok_iff.mp h
  obtain ⟨ms, w₅, -, h⟩ := bind_ok_iff.mp h
  obtain ⟨as, w₆, -, h⟩ := bind_ok_iff.mp h
  obtain ⟨⟨⟩, w₇, -, h⟩ := bind_ok_iff.mp h
  obtain ⟨⟨⟩, w₈, hvisit, h⟩ := bind_ok_iff.mp h
  obtain ⟨cancelled, w₉, hcancelled, h⟩ := bind_ok_iff.mp h
  cases hcancelled
  split at h
  · cases h
  · cases h
    refine ⟨w₇, ?_⟩
    unfold Resync.afterBatch at hvisit ⊢
    rw [Diff.hasChanges_sort]
    exact hvisit

theorem visited_of_applyBatch {sourced : List Repo} {d : Diff}
    (h : y.applyBatch svc sourced least w = (.ok d, w')) :
    ∃ id row next, (svc.id ≠ 0 → id = svc.id) ∧
      w'.store.catalog.services.get? id = some row ∧ row.lastSyncAt = some y.now ∧
      y.now.add? (Resync.afterBatch y.now svc.lastSyncAt least d) = some next ∧
      row.nextSyncAt = some next := by
  obtain ⟨v, hvisit⟩ := recordVisit_of_applyBatch h
  exact recordVisit_row hvisit

theorem publish_ok {d : Diff} {u : Unit} (h : y.publish d w = (.ok u, w')) :
    w'.store = w.store ∧ w'.published =
      if y.audience = .listening ∧ !w'.isCancelled then w.published ++ [d] else w.published := by
  unfold publish at h
  split at h
  · rename_i hheard
    cases h
    exact ⟨rfl, (if_pos hheard).symm⟩
  · rename_i hunheard
    cases h
    exact ⟨rfl, (if_neg hunheard).symm⟩

/-- What is left of a batch pass once its transaction is over. -/
def report (y : Syncer) (d : Diff) (failure : Option SyncError) : Pass Unit := do
  y.publish d
  match failure with
  | some failure => Effect.fail failure
  | none => pure ()

theorem run_report {d : Diff} {failure : Option SyncError} {r : Except (Abort SyncError) Unit}
    (h : y.report d failure w = (r, w')) : r = concluded failure ∧ w'.store = w.store ∧
      w'.published =
        if y.audience = .listening ∧ !w'.isCancelled then w.published ++ [d] else w.published := by
  obtain ⟨v, hpublish⟩ := publish_total y d w
  unfold report at h
  rw [bind_of_ok hpublish] at h
  cases failure with
  | none =>
      cases h
      exact ⟨rfl, publish_ok hpublish⟩
  | some e =>
      cases h
      exact ⟨rfl, publish_ok hpublish⟩

instance : Chained Untouched where
  refl _ := ⟨rfl, rfl, rfl⟩
  trans h h' := ⟨h'.catalog.trans h.catalog, h'.saved.trans h.saved, h'.published.trans h.published⟩

theorem Untouched.of_still {v v' : World} (h : SameStore v v') (h' : Silent v v') :
    Untouched v v' :=
  ⟨congrArg Store.catalog h, congrArg Store.saved h, h'⟩

instance : Asks Untouched where
  ask context operation step h := fun w =>
    .of_still (still_store h w) (outward_store context operation step w)

theorem silent_applyBatch (y : Syncer) (svc : Service) (sourced : List Repo) (least : Duration) :
    Within Silent (y.applyBatch svc sourced least) :=
  admits_applyBatch (p := fun _ => True) y svc (fun _ _ => trivial) least fun _ _ =>
    outward_store _ _ _

theorem untouched_of_transaction {α : Type} {lift : StoreError → SyncError} {body : Pass α}
    (hsaved : Within SameSaved body) (hsilent : Within Silent body) {e : Abort SyncError}
    (h : transaction lift body w = (.error e, w')) : Untouched w w' :=
  ⟨(transacted hsaved h).restored e rfl, (transacted hsaved h).saved,
    (outward_transaction hsilent).of_run h⟩

/-- The next step of a pass either ends it, with everything as it was, or answers. -/
theorem step_cases {α : Type} {x : Pass α} {f : α → Pass Unit}
    {r : Except (Abort SyncError) Unit} (hx : Fails Abort.Genuine x)
    (herror : ∀ e v, x w = (.error e, v) → Untouched w v) (h : (x >>= f) w = (r, w')) :
    hasCommitted r = false ∧ Untouched w w' ∨ ∃ a v, x w = (.ok a, v) ∧ f a v = (r, w') := by
  rcases bind_cases h with ⟨e, hrun, rfl⟩ | hok
  · exact .inl ⟨not_hasCommitted hx hrun, herror e w' hrun⟩
  · exact .inr hok

/-- From where its listing has been read, a batch pass commits or leaves everything alone. -/
theorem batch_cases {r : Except (Abort SyncError) Unit} (h : y.batch svc least w = (r, w')) :
    hasCommitted r = false ∧ Untouched (y.reading svc w).2 w' ∨
      hasCommitted r = true ∧ ∃ d, Committed y svc least (y.reading svc w).2 r d w' := by
  rw [batch_eq] at h
  rcases bind_cases h with ⟨e, hread, rfl⟩ | ⟨listing, v, hread, h⟩
  · rw [hread]
    exact .inl ⟨not_hasCommitted (genuine_reading y svc) hread, Chained.refl (R := Untouched) _⟩
  rw [hread]
  obtain ⟨items, hitems, rfl⟩ := reading_ok hread
  have hjudged := within_ofExcept (R := Untouched) (judge svc (.ofItems items))
  have hallowed : Within Untouched (y.allowsPrivate svc) := asks_allowsPrivate y svc
  rcases step_cases (genuine_judge svc (.ofItems items)) (fun e u hrun => hjudged.of_run hrun) h
    with hleft | ⟨⟨sourced, failure⟩, v₁, hjudge, h₁⟩
  · exact .inl hleft
  obtain ⟨hlisting, rfl⟩ := ofExcept_ok hjudge
  rcases step_cases (fails_allowsPrivate y svc (Abort.mundane_genuine.store _))
    (fun e u hrun => hallowed.of_run hrun) h₁ with hleft | ⟨allowed, v₂, hsees, h₂⟩
  · exact .inl hleft
  have hsame := hallowed.of_run hsees
  let visible := if allowed then sourced else sourced.filter fun r => !r.isPrivate
  have hsaved := saved_applyBatch y svc visible least
  have hsilent := silent_applyBatch y svc visible least
  rcases step_cases (fails_applied Abort.mundane_genuine y svc visible least)
    (fun e u hrun => untouched_of_transaction hsaved hsilent hrun) h₂
    with ⟨hr, hleft⟩ | ⟨d, v₃, happlied, h₃⟩
  · exact .inl ⟨hr, Chained.trans (R := Untouched) hsame hleft⟩
  obtain ⟨u, u', hu, hrun, hcatalog⟩ := transaction_ok hsaved happlied
  obtain ⟨hr, hstore, htold⟩ := run_report h₃
  have hpublished : v₃.published = v₂.published := (outward_transaction hsilent).of_run happlied
  rw [hpublished, show v₂.published = v.published from hsame.published] at htold
  have hopened : u.store.catalog = v.store.catalog := (catalog_of_opened hu).trans hsame.catalog
  refine .inr ⟨hr ▸ hasCommitted_concluded hlisting, d, ?_, ?_, htold⟩
  · exact ⟨items, sourced, failure, allowed, u, u', hitems, hlisting, hr,
      fun hs => allowsPrivate_ok hs hsees, hopened, hrun, by rw [hstore, hcatalog]⟩
  · rw [hstore, (transacted hsaved happlied).saved, hsame.saved]

theorem Committed.of_untouched {v : World} {r : Except (Abort SyncError) Unit} {d : Diff}
    (h : Committed y svc least v r d w') (hv : Untouched w v) : Committed y svc least w r d w' := by
  refine ⟨?_, h.saved.trans hv.saved, hv.published ▸ h.published⟩
  obtain ⟨items, sourced, failure, allowed, u, u', hitems, hlisting, hr, hsees, hu, hrun,
    hcatalog⟩ := h.written
  rw [hv.catalog] at hsees
  exact ⟨items, sourced, failure, allowed, u, u', hitems, hlisting, hr, hsees,
    hu.trans hv.catalog, hrun, hcatalog⟩

theorem Committed.visited {v : World} {r : Except (Abort SyncError) Unit} {d : Diff}
    (h : Committed y svc least v r d w') : ∃ id row next, (svc.id ≠ 0 → id = svc.id) ∧
      w'.store.catalog.services.get? id = some row ∧ row.lastSyncAt = some y.now ∧
      y.now.add? (Resync.afterBatch y.now svc.lastSyncAt least d) = some next ∧
      row.nextSyncAt = some next := by
  obtain ⟨items, sourced, failure, allowed, u, u', -, -, -, -, -, hrun, hcatalog⟩ := h.written
  rw [hcatalog]
  exact visited_of_applyBatch hrun

theorem untouched_of_sync {repo : Repo} {e : Abort SyncError}
    (h : y.sync svc repo w = (.error e, w')) : Untouched w w' := by
  unfold sync at h
  rcases bind_cases h with ⟨e', hrun, -⟩ | ⟨d, v, -, hrest⟩
  · exact untouched_of_transaction (saved_reconcile y svc repo)
      (admits_reconcile (p := fun _ => True) y svc trivial) hrun
  · -- Nothing fails any more once the transaction has gone through.
    obtain ⟨u, hpublish⟩ := publishSome_total y d v
    rw [bind_of_ok hpublish] at hrest
    cases hrest

/-- Without early insertion, a batch pass leaves everything alone unless it commits, and then its
visit is on record and its audience knows; and what fails for a single repository leaves no trace. -/
theorem all_or_nothing (hinsert : y.settings.streamingInsert = false) (w : World) :
    (∀ r w', y.batch svc least w = (r, w') →
      (hasCommitted r = false → Untouched w w') ∧
      (hasCommitted r = true → ∃ d, Committed y svc least w r d w' ∧
        ∃ id row next, (svc.id ≠ 0 → id = svc.id) ∧
          w'.store.catalog.services.get? id = some row ∧ row.lastSyncAt = some y.now ∧
          y.now.add? (Resync.afterBatch y.now svc.lastSyncAt least d) = some next ∧
          row.nextSyncAt = some next)) ∧
    ∀ repo e w', y.sync svc repo w = (.error e, w') → Untouched w w' := by
  have hread : Untouched w (y.reading svc w).2 := within_reading_quietly (.inl hinsert) w
  refine ⟨fun r w' hrun => ?_, fun repo e w' hrun => ?_⟩
  · rcases batch_cases hrun with ⟨hr, hleft⟩ | ⟨hr, d, hcommitted⟩
    · refine ⟨fun _ => Chained.trans (R := Untouched) hread hleft, fun hr' => ?_⟩
      cases hr.symm.trans hr'
    · refine ⟨fun hr' => ?_, fun _ => ⟨d, hcommitted.of_untouched hread, hcommitted.visited⟩⟩
      cases hr.symm.trans hr'
  · exact untouched_of_sync hrun

theorem all_or_nothing_first :
    let y := Sample.syncer [.ok (Sample.entry "1" "alpha")]
    let broken := { Sample.base with faults := [⟨.commit, 0, some (.invalid "lost")⟩] }
    (∃ w' d, y.batch Sample.hub ⟨0⟩ Sample.base = (.ok (), w') ∧
      Committed y Sample.hub ⟨0⟩ Sample.base (.ok ()) d w') ∧
    ∃ e w', y.batch Sample.hub ⟨0⟩ broken = (.error e, w') ∧ Untouched broken w' := by
  intro y broken
  have hok : (y.batch Sample.hub ⟨0⟩ Sample.base).1.isOk = true := by decide +kernel
  have hfails : hasCommitted (y.batch Sample.hub ⟨0⟩ broken).1 = false := by decide +kernel
  constructor
  · cases hrun : y.batch Sample.hub ⟨0⟩ Sample.base with
    | mk r w' =>
        rw [hrun] at hok
        cases r with
        | error e => cases hok
        | ok u =>
            obtain ⟨d, hd, -⟩ := ((all_or_nothing rfl Sample.base).1 _ _ hrun).2 rfl
            exact ⟨w', d, rfl, hd⟩
  · cases hrun : y.batch Sample.hub ⟨0⟩ broken with
    | mk r w' =>
        rw [hrun] at hfails
        have huntouched := ((all_or_nothing rfl broken).1 _ _ hrun).1 hfails
        cases r with
        | ok u => cases hfails
        | error e => exact ⟨e, w', rfl, huntouched⟩

end Syncer

end RepoCatalog
