import RepoCatalog.Proofs.Streamed

/-!
# Services that are edited while a pass runs

A pass reads the row of its service when it begins and writes it as a whole when it ends. Every
column that is not about the visit then is what it was in the copy, whatever was written to the row
in between.
-/
namespace RepoCatalog

open Step
open Time (Duration Instant)

namespace ServiceRow

/-- The columns of a row that have nothing to do with the visit. -/
def lasting (row : ServiceRow) : ServiceRow :=
  { row with lastSyncAt := none, nextSyncAt := none, updatedAt := ⟨0⟩ }

/-- The row with its kind spelled as in every row that is written for a service in memory. -/
def spelled (row : ServiceRow) (kind : Kind) : ServiceRow :=
  { row with kindName := kind.name }

end ServiceRow

namespace Service

theorem lasting_rowAt {loaded : ServiceRow} {id : Int} {svc : Service}
    (h : loaded.toService? id = some svc) (at_ next now : Instant) :
    ((svc.visited at_ next).rowAt now).lasting = (loaded.spelled svc.kind).lasting := by
  unfold ServiceRow.toService? at h
  obtain ⟨kind, -, rfl⟩ := Option.map_eq_some_iff.mp h
  rfl

end Service

namespace Store

/-- The services are as they were. -/
def SameServices (s t : Store) : Prop :=
  t.catalog.services = s.catalog.services

instance : Chained SameServices where
  refl _ := rfl
  trans h h' := Eq.trans h' h

theorem services_sweep (svc : Service) (keep : List Int) :
    Within SameServices (sweep svc keep) := by
  have hupdate : ∀ tables (f : Catalog → Catalog), (∀ c, (f c).services = c.services) →
      Within SameServices (update tables f) := by
    intro tables f hf s
    unfold update
    rcases write_cases tables (fun c => .ok ((), f c)) s with ⟨e, hrun⟩ | ⟨⟨⟩, c, hc, hrun⟩
    · rw [hrun]
      rfl
    · rw [hrun]
      cases hc
      exact hf s.catalog
  refine Within.bind ((still_read _ _).mono fun s t h => h ▸ rfl) fun held => ?_
  simp only []
  split
  · exact Within.pure _
  · exact Within.bind (fun _ => rfl) fun _ =>
      Within.bind (Within.forM fun _ _ => Within.bind (hupdate _ _ fun c => rfl) fun _ =>
        hupdate _ _ fun c => rfl) fun _ => Within.pure _

end Store

namespace Effect

def SameServices (w w' : World) : Prop :=
  Store.SameServices w.store w'.store

instance : Chained SameServices where
  refl _ := rfl
  trans h h' := Eq.trans h' h

theorem store_error {α : Type} {w w' : World} {context : String} {operation : StoreOperation}
    {step : StoreM α} {e : Abort SyncError} (h : store context operation step w = (.error e, w')) :
    w'.store = w.store ∨ ∃ e', step w.store = (.error e', w'.store) := by
  have hstore : w'.store = (call operation step w).2.store := by
    rw [← snd_mapError (SyncError.store context), show mapError _ _ w = _ from h]
  rw [hstore]
  rcases call_store operation step w with ⟨hsame, -⟩ | ⟨hran, hok⟩
  · exact .inl hsame
  · right
    rw [hran]
    cases hstep : step w.store with
    | mk r s =>
        cases r with
        | error e' => exact ⟨e', rfl⟩
        | ok a =>
            have hcall := (hok a).mpr (congrArg Prod.fst hstep)
            have hrun := run_mapError_ok (f := SyncError.store context).mpr
              (Prod.ext hcall rfl : call operation step w = (.ok a, (call operation step w).2))
            cases hrun.symm.trans h

end Effect

namespace Syncer

open Effect Catalog

variable {y : Syncer} {svc : Service} {least : Duration} {w w' : World}
  {loaded row after : ServiceRow}

/-- A visit was put on record over the copy of the row that the pass had read. -/
structure Overwritten (y : Syncer) (svc : Service) (loaded after : ServiceRow) : Prop where
  visited : after.lastSyncAt = some y.now
  columns : after.lasting = (loaded.spelled svc.kind).lasting

/-- What was written to the row in between lasts only if it comes to what the pass had read. -/
theorem Overwritten.lasts_iff (h : Overwritten y svc loaded after) :
    after.lasting = row.lasting ↔ row.lasting = (loaded.spelled svc.kind).lasting := by
  rw [h.columns]
  exact eq_comm

theorem recordVisit_overwrites {interval : Duration} {u : Unit}
    (hload : loaded.toService? svc.id = some svc) (hid : svc.id ≠ 0)
    (h : y.recordVisit svc interval w = (.ok u, w')) :
    ∃ after, w'.store.catalog.services.get? svc.id = some after ∧
      Overwritten y svc loaded after := by
  obtain ⟨next, svc', -, hput⟩ := recordVisit_put h
  obtain ⟨hsame, hrow⟩ := Store.putService_row hput
  rw [hsame hid] at hrow
  exact ⟨_, hrow, rfl, Service.lasting_rowAt hload _ _ _⟩

theorem recordVisit_leaves {interval : Duration} {e : Abort SyncError}
    (h : y.recordVisit svc interval w = (.error e, w')) :
    (∀ es, e ≠ .failed (.multi es)) ∧ w'.store.catalog = w.store.catalog := by
  unfold recordVisit at h
  cases hnext : y.now.add? interval with
  | none =>
      rw [hnext] at h
      cases h
      exact ⟨fun es hmulti => (by cases hmulti), rfl⟩
  | some next =>
      rw [hnext] at h
      rcases bind_cases h with ⟨e', hput, he⟩ | ⟨_, v, -, hend⟩
      · cases he
        constructor
        · rintro es rfl
          exact fails_store (p := Abort.IsStore) _ _ _ (fun _ => trivial) w _ _ hput
        · rcases store_error hput with hsame | ⟨e', hstep⟩
          · exact congrArg Store.catalog hsame
          · exact Store.putService_error hstep
      · cases hend

theorem services_sweepUnseen (y : Syncer) (svc : Service) (keep : List Int) :
    Within SameServices (y.sweepUnseen svc keep) := by
  rw [sweepUnseen_eq]
  refine Within.bind ?_ fun ids => ?_
  · exact transaction_rel (S := fun c d => d.services = c.services) (fun _ => rfl)
      (on_store (Store.within_sweep svc keep)) fun v ids v' hrun =>
        (Store.services_sweep svc keep).of_run (store_ok hrun)
  · exact (asks_tellSwept (R := SameStore) (still_publish y) ids).mono fun v v' h =>
      congrArg (fun s : Store => s.catalog.services) h

/-- Whether a streaming pass that ends so has come to its report. -/
def HasReported (r : Except (Abort SyncError) Unit) : Prop :=
  r = .ok () ∨ ∃ es, r = .error (.failed (.multi es))

theorem hasReported_bundle {es : List SyncError} {r : Except (Abort SyncError) Unit}
    (h : Effect.ofExcept (SyncError.bundle es) w = (r, w')) : HasReported r ∧ w' = w := by
  cases es with
  | nil =>
      cases h
      exact ⟨.inl rfl, rfl⟩
  | cons e es =>
      cases h
      exact ⟨.inr ⟨_, rfl⟩, rfl⟩

/-- What becomes of the row of a service whose copy `loaded` was read before: it is overwritten once
the pass is `done`, and it is left alone otherwise. -/
structure Rewritten (y : Syncer) (svc : Service) (loaded row after : ServiceRow) (done : Prop) :
    Prop where
  overwritten : done → Overwritten y svc loaded after
  left : ¬done → after = row

/-- The other columns of the row last if and only if the pass writes nothing or they are as it had
read them. -/
theorem Rewritten.lasts_iff {done : Prop} (h : Rewritten y svc loaded row after done) :
    after.lasting = row.lasting ↔ (done → row.lasting = (loaded.spelled svc.kind).lasting) := by
  by_cases hdone : done
  · rw [(h.overwritten hdone).lasts_iff]
    exact ⟨fun hsame _ => hsame, fun hsame => hsame hdone⟩
  · rw [h.left hdone]
    exact ⟨fun _ hyes => absurd hyes hdone, fun _ => rfl⟩

theorem rewritten_applied (hload : loaded.toService? svc.id = some svc) (hid : svc.id ≠ 0)
    (hrow : w.store.catalog.services.get? svc.id = some row) {sourced : List Repo}
    {r : Except (Abort SyncError) Diff}
    (h : transaction .ofStore (y.applyBatch svc sourced least) w = (r, w')) :
    ∃ after, w'.store.catalog.services.get? svc.id = some after ∧
      Rewritten y svc loaded row after (∃ d, r = .ok d) := by
  have hdone := transacted (saved_applyBatch y svc sourced least) h
  cases r with
  | ok d =>
      obtain ⟨v, v', -, hrun, hcatalog⟩ := hdone.kept d rfl
      obtain ⟨u, hvisit⟩ := recordVisit_of_applyBatch hrun
      rw [hcatalog]
      obtain ⟨after, hafter, hover⟩ := recordVisit_overwrites hload hid hvisit
      exact ⟨after, hafter, ⟨fun _ => hover, fun hno => absurd ⟨d, rfl⟩ hno⟩⟩
  | error e =>
      rw [hdone.restored e rfl]
      refine ⟨row, hrow, ⟨?_, fun _ => rfl⟩⟩
      rintro ⟨d, hok⟩
      cases hok

theorem rewritten_closing (hload : loaded.toService? svc.id = some svc) (hid : svc.id ≠ 0)
    (hrow : w.store.catalog.services.get? svc.id = some row) {s : Stream}
    {r : Except (Abort SyncError) Unit} (h : y.closing svc least s w = (r, w')) :
    ∃ after, w'.store.catalog.services.get? svc.id = some after ∧
      Rewritten y svc loaded row after (HasReported r) := by
  have hleft : ∀ {v : World} {e : Abort SyncError}, (∀ es, e ≠ .failed (.multi es)) →
      v.store.catalog.services = w.store.catalog.services →
      ∃ after, v.store.catalog.services.get? svc.id = some after ∧
        Rewritten y svc loaded row after (HasReported (.error e)) := by
    intro v e he hsame
    refine ⟨row, hsame ▸ hrow, ⟨?_, fun _ => rfl⟩⟩
    rintro (hok | ⟨es, hmulti⟩)
    · cases hok
    · cases hmulti
      exact absurd rfl (he es)
  have hsweeps := services_sweepUnseen y svc s.seen
  cases closing_steps h with
  | unswept hsweep =>
      refine hleft ?_ (hsweeps.of_run hsweep)
      rintro es rfl
      exact fails_sweepUnseen y svc s.seen w _ _ hsweep
  | unrecorded hsweep hvisit =>
      obtain ⟨hplain, hsame⟩ := recordVisit_leaves hvisit
      exact hleft hplain (hsame ▸ hsweeps.of_run hsweep)
  | reported _ hvisit hend =>
      obtain ⟨hreported, rfl⟩ := hasReported_bundle hend
      obtain ⟨after, hafter, hover⟩ := recordVisit_overwrites hload hid hvisit
      exact ⟨after, hafter, ⟨fun _ => hover, fun hno => absurd hreported hno⟩⟩

/-- Whatever was written to the row of a service between its reading and the end of a pass: a batch
that is written, and a streaming pass that comes to its report, put back the columns of the copy that
they had read. So what they do not record about the visit is left as it is if and only if they write
nothing or it is what they had read. -/
theorem edits_last_iff (hload : loaded.toService? svc.id = some svc) (hid : svc.id ≠ 0)
    (hrow : w.store.catalog.services.get? svc.id = some row) :
    (∀ sourced r w', transaction .ofStore (y.applyBatch svc sourced least) w = (r, w') →
      ∃ after, w'.store.catalog.services.get? svc.id = some after ∧
        Rewritten y svc loaded row after (∃ d, r = .ok d) ∧
        (after.lasting = row.lasting ↔
          ((∃ d, r = .ok d) → row.lasting = (loaded.spelled svc.kind).lasting))) ∧
    ∀ s r w', y.closing svc least s w = (r, w') →
      ∃ after, w'.store.catalog.services.get? svc.id = some after ∧
        Rewritten y svc loaded row after (HasReported r) ∧
        (after.lasting = row.lasting ↔
          (HasReported r → row.lasting = (loaded.spelled svc.kind).lasting)) := by
  constructor
  · intro sourced r w' h
    obtain ⟨after, hafter, hrewritten⟩ := rewritten_applied hload hid hrow h
    exact ⟨after, hafter, hrewritten, hrewritten.lasts_iff⟩
  · intro s r w' h
    obtain ⟨after, hafter, hrewritten⟩ := rewritten_closing hload hid hrow h
    exact ⟨after, hafter, hrewritten, hrewritten.lasts_iff⟩

end Syncer

namespace Sample

/-- The host was deleted after a pass had read it. -/
def closed : World :=
  { base with store := (Store.patchService 1 none (some ⟨5⟩) base.store).2 }

end Sample

namespace Syncer

open Effect

/-- That the host was deleted lasts if and only if the pass that had read it before writes nothing. -/
theorem edits_last_iff_deletion :
    ∃ loaded row, Sample.base.store.catalog.services.get? Sample.hub.id = some loaded ∧
      loaded.toService? Sample.hub.id = some Sample.hub ∧
      Sample.closed.store.catalog.services.get? Sample.hub.id = some row ∧
      row.deletedAt = some ⟨5⟩ ∧
      (∀ sourced r w', transaction .ofStore ((Sample.syncer []).applyBatch Sample.hub sourced ⟨0⟩)
          Sample.closed = (r, w') →
        ∃ after, w'.store.catalog.services.get? Sample.hub.id = some after ∧
          (after.lasting = row.lasting ↔ ¬∃ d, r = .ok d)) ∧
      ∀ s r w', (Sample.syncer []).closing Sample.hub ⟨0⟩ s Sample.closed = (r, w') →
        ∃ after, w'.store.catalog.services.get? Sample.hub.id = some after ∧
          (after.lasting = row.lasting ↔ ¬HasReported r) := by
  obtain ⟨loaded, hloaded⟩ : ∃ loaded,
      Sample.base.store.catalog.services.get? Sample.hub.id = some loaded := ⟨_, rfl⟩
  obtain ⟨row, hrow⟩ : ∃ row,
      Sample.closed.store.catalog.services.get? Sample.hub.id = some row := ⟨_, rfl⟩
  have hload : loaded.toService? Sample.hub.id = some Sample.hub := by
    cases hloaded
    rfl
  have hdeleted : row.deletedAt = some ⟨5⟩ := by
    cases hrow
    rfl
  have hedited : row.lasting ≠ (loaded.spelled Sample.hub.kind).lasting := by
    cases hloaded
    cases hrow
    exact fun h => absurd (congrArg ServiceRow.deletedAt h) (by decide)
  obtain ⟨hbatch, hstream⟩ := @edits_last_iff (Sample.syncer []) Sample.hub ⟨0⟩ Sample.closed
    loaded row hload (by decide) hrow
  refine ⟨loaded, row, hloaded, hload, hrow, hdeleted, fun sourced r w' h => ?_,
    fun s r w' h => ?_⟩
  · obtain ⟨after, hafter, -, hiff⟩ := hbatch sourced r w' h
    exact ⟨after, hafter, hiff.trans ⟨fun h hok => hedited (h hok), fun h hok => absurd hok h⟩⟩
  · obtain ⟨after, hafter, -, hiff⟩ := hstream s r w' h
    exact ⟨after, hafter, hiff.trans ⟨fun h hok => hedited (h hok), fun h hok => absurd hok h⟩⟩

/-- The host is back once the batch has been written, and so it is at the end of a streaming pass. -/
theorem deleted_service_returns :
    ∃ row, Sample.closed.store.catalog.services.get? Sample.hub.id = some row ∧
      row.deletedAt = some ⟨5⟩ ∧
      (∃ d w' after, transaction .ofStore ((Sample.syncer []).applyBatch Sample.hub [] ⟨0⟩)
          Sample.closed = (.ok d, w') ∧
        w'.store.catalog.services.get? Sample.hub.id = some after ∧ after.deletedAt = none) ∧
      ∃ w' after, (Sample.syncer []).closing Sample.hub ⟨0⟩ (.start Sample.closed) Sample.closed =
          (.ok (), w') ∧
        w'.store.catalog.services.get? Sample.hub.id = some after ∧ after.deletedAt = none := by
  have hback : ∀ {α : Type} {r : Except (Abort SyncError) α × World}, r.1.isOk = true →
      (r.2.store.catalog.services.get? Sample.hub.id).map (·.deletedAt) = some none →
      ∃ a w' after, r = (.ok a, w') ∧ w'.store.catalog.services.get? Sample.hub.id = some after ∧
        after.deletedAt = none := by
    intro α r hok hrow
    obtain ⟨a, hrun⟩ := exists_of_isOk hok
    obtain ⟨after, hafter, hlive⟩ := Option.map_eq_some_iff.mp hrow
    exact ⟨a, r.2, after, hrun, hafter, hlive⟩
  obtain ⟨⟨⟩, hclosing⟩ := hback
    (r := (Sample.syncer []).closing Sample.hub ⟨0⟩ (.start Sample.closed) Sample.closed)
    (by decide) (by decide)
  exact ⟨_, rfl, rfl, hback (by decide +kernel) (by decide +kernel), hclosing⟩

end Syncer

end RepoCatalog
