import RepoCatalog.Proofs.Single

/-!
# Steps that keep the catalog tidy

Whatever the faults, and whether a pass is cancelled or not: reading leaves the store as it is, and
what is done for a single repository is done in a transaction that keeps the catalog tidy.
-/
namespace RepoCatalog

open Step

namespace Effect

variable {α ε δ : Type} {w w' : World}

/-- The same transactions are open, and a tidy catalog stays tidy, with the same services. -/
structure Orderly (w w' : World) : Prop where
  saved : w'.store.saved = w.store.saved
  tidy : w.store.catalog.Tidy →
    w'.store.catalog.Tidy ∧ Catalog.SameSetting w.store.catalog w'.store.catalog

theorem Orderly.of_store {w w' : World} (h : SameStore w w') : Orderly w w' := by
  unfold SameStore at h
  constructor
  · rw [h]
  · intro hw
    rw [h]
    exact ⟨hw, .refl _⟩

instance : Chained Orderly where
  refl _ := .of_store rfl
  trans h h' := by
    refine ⟨h'.saved.trans h.saved, fun hs => ?_⟩
    obtain ⟨ht, hsetting⟩ := h.tidy hs
    obtain ⟨hu, hsetting'⟩ := h'.tidy ht
    exact ⟨hu, hsetting.trans hsetting'⟩

theorem within_still {x : Effect ε α} (h : Within SameStore x) : Within Orderly x :=
  h.mono fun _ _ => .of_store

instance : Asks Orderly where
  ask _ _ _ h := within_still (still_store h)

/-- A transaction is orderly if its body is whenever it ends well. -/
theorem within_transaction {lift : StoreError → SyncError} {body : Pass α}
    (hbody : Within SameSaved body)
    (h : ∀ v a v', v.store.catalog.Tidy → body v = (.ok a, v') →
      v'.store.catalog.Tidy ∧ Catalog.SameSetting v.store.catalog v'.store.catalog) :
    Within Orderly (transaction lift body) := fun w =>
  ⟨(transacted hbody (Prod.eta (transaction lift body w)).symm).saved,
    transaction_rel (S := fun c d => c.Tidy → d.Tidy ∧ c.SameSetting d) (fun c hc => ⟨hc, .refl c⟩)
      hbody (fun v a v' hrun hv => h v a v' hv hrun) w⟩

end Effect

namespace Syncer

open Effect Catalog

variable {y : Syncer} {svc : Service} {sourced : Repo} {w w' : World}

theorem introduce_ok {d : Diff} (hw : w.store.catalog.Tidy)
    (h : y.introduce svc sourced w = (.ok d, w')) :
    w'.store.catalog.Tidy ∧ SameSetting w.store.catalog w'.store.catalog := by
  obtain ⟨added, hjoined, -⟩ := introduce_joined hw.furnished.tables h
  exact ⟨hw.joined hjoined rfl (Int.le_refl 0), hjoined.setting⟩

theorem refresh_ok {existing : Repo} {d : Diff} (hw : w.store.catalog.Tidy)
    (hlive : sourced.deletedAt = none) (hid : 0 < existing.id)
    (h : y.refresh svc existing sourced w = (.ok d, w')) :
    w'.store.catalog.Tidy ∧ SameSetting w.store.catalog w'.store.catalog := by
  rcases refresh_cases hw.furnished.tables h with ⟨-, rfl, -⟩ | ⟨-, x, -, hjoined, -⟩
  · exact ⟨hw, .refl _⟩
  · refine ⟨hw.joined hjoined ?_ (Int.le_of_lt hid), hjoined.setting⟩
    unfold renewed Repo.revised
    simp only [hlive, Option.isNone_none, if_true]

theorem reconcile_ok {d : Diff} (hw : w.store.catalog.Tidy) (hlive : sourced.deletedAt = none)
    (h : y.reconcile svc sourced w = (.ok d, w')) :
    w'.store.catalog.Tidy ∧ SameSetting w.store.catalog w'.store.catalog := by
  obtain ⟨rival, existing, ds, d', v, v', htold, hstore, hdisplace, -, hend⟩ :=
    reconcile_inv hw.furnished.tables h
  rw [← hstore] at htold hw ⊢
  obtain ⟨hdeleted, -⟩ := displace_deleted hw.furnished.tables hdisplace
  have hw' := hw.deleted hdeleted
  rcases hend with ⟨x, rfl, hrefresh⟩ | ⟨rfl, u, -, hu, hintroduce⟩
  · obtain ⟨row, hrow, -⟩ := htold.own x rfl
    obtain ⟨hdone, hsetting⟩ := refresh_ok hw' hlive (hw.ids _ _ hrow) hrefresh
    exact ⟨hdone, hdeleted.setting.trans hsetting⟩
  · rw [← hu] at hw' hdeleted
    obtain ⟨hdone, hsetting⟩ := introduce_ok hw' hintroduce
    exact ⟨hdone, hdeleted.setting.trans hsetting⟩

theorem reconcileNew_ok {d : Diff} (hw : w.store.catalog.Tidy)
    (h : y.reconcileNew svc sourced w = (.ok d, w')) :
    w'.store.catalog.Tidy ∧ SameSetting w.store.catalog w'.store.catalog := by
  rcases reconcileNew_cases hw.furnished h with hsame | ⟨added, hjoined⟩
  · rw [hsame]
    exact ⟨hw, .refl _⟩
  · exact ⟨hw.joined hjoined rfl (Int.le_refl 0), hjoined.setting⟩

theorem within_sync (y : Syncer) (svc : Service) (hlive : sourced.deletedAt = none) :
    Within Orderly (y.sync svc sourced) := by
  refine Within.bind (within_transaction (saved_reconcile y svc sourced) ?_) fun d =>
    Within.bind (within_still (still_publishSome y d)) fun _ => Within.pure _
  exact fun v d v' hv hrun => reconcile_ok hv hlive hrun

theorem within_insertIfNew (y : Syncer) (svc : Service) (sourced : Repo) :
    Within Orderly (y.insertIfNew svc sourced) := by
  refine Within.bind (within_transaction (saved_reconcileNew y svc sourced) ?_) fun d =>
    within_still (still_publishSome y d)
  exact fun v d v' hv hrun => reconcileNew_ok hv hrun

end Syncer

end RepoCatalog
