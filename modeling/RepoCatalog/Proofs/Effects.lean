import RepoCatalog.Proofs.Changes
import RepoCatalog.Sync.Stream

/-!
# Runs of effects

An effect that ends well has let its store step run to its end, whatever the faults; and without
faults it ends as its step does. A transaction either keeps what its body wrote or restores the
catalog.
-/
namespace RepoCatalog

open Step

namespace Store

/-- The same transactions are open. -/
def SameSaved (s t : Store) : Prop :=
  t.saved = s.saved

instance : Chained SameSaved where
  refl _ := rfl
  trans h h' := h'.trans h

theorem Wrote.sameSaved {p : String → Prop} {α : Type} {x : StoreM α} (hx : Within (Wrote p) x) :
    Within SameSaved x :=
  hx.mono fun _ _ h => h.saved

theorem within_sweep (svc : Service) (keep : List Int) : Within SameSaved (sweep svc keep) :=
  Wrote.sameSaved (p := fun _ => True) (wrote_sweep svc keep)

theorem within_putService (svc : Service) : Within SameSaved (putService svc) := by
  have hwrite : ∀ {α : Type} (f : Catalog → Catalog.Change α),
      Within SameSaved (write [.services] f) := by
    intro α f s
    rcases write_cases [.services] f s with ⟨e, hrun⟩ | ⟨a, c, -, hrun⟩
    · rw [hrun]
      rfl
    · rw [hrun]
      rfl
  refine Within.bind (fun _ => rfl) fun now => ?_
  simp only []
  split
  · exact Within.bind (hwrite _) fun _ => Within.pure _
  · exact Within.bind (hwrite _) fun _ => Within.pure _

end Store

namespace Effect

variable {α β ε δ : Type} {w w' : World}

theorem run_mapError_ok {f : ε → δ} {effect : Effect ε α} {a : α} :
    effect.mapError f w = (.ok a, w') ↔ effect w = (.ok a, w') := by
  unfold mapError
  cases effect w with
  | mk r v =>
      cases r with
      | ok b =>
          constructor
          · intro h
            cases h
            rfl
          · intro h
            cases h
            rfl
      | error e =>
          constructor
          · intro h
            cases e <;> cases h
          · intro h
            cases h

theorem run_mapError_error {f : ε → δ} {effect : Effect ε α} {e : Abort ε}
    (h : effect w = (.error e, w')) : ∃ e', effect.mapError f w = (.error e', w') := by
  unfold mapError
  rw [h]
  cases e with
  | failed e => exact ⟨_, rfl⟩
  | defect d => exact ⟨_, rfl⟩

theorem snd_mapError (f : ε → δ) (effect : Effect ε α) (w : World) :
    (effect.mapError f w).2 = (effect w).2 := by
  unfold mapError
  cases effect w with
  | mk r v =>
      cases r with
      | ok b => rfl
      | error e => cases e <;> rfl

theorem call_store (operation : StoreOperation) (step : StoreM α) (w : World) :
    ((call operation step w).2.store = w.store ∧ ∃ e, (call operation step w).1 = .error e) ∨
      (call operation step w).2.store = (step w.store).2 ∧
        ∀ a, (call operation step w).1 = .ok a ↔ (step w.store).1 = .ok a := by
  have hof : ∀ v : World, v.store = w.store → (ofStore step v).2.store = (step w.store).2 ∧
      ∀ a, (ofStore step v).1 = .ok a ↔ (step w.store).1 = .ok a := by
    intro v hv
    unfold ofStore
    rw [hv]
    cases step w.store with
    | mk r s =>
        cases r with
        | ok b =>
            refine ⟨rfl, fun a => ⟨fun h => ?_, fun h => ?_⟩⟩
            · cases h
              rfl
            · cases h
              rfl
        | error e =>
            refine ⟨rfl, fun a => ⟨fun h => ?_, fun h => ?_⟩⟩
            · cases h
            · cases h
  unfold call
  cases Fault.strike operation w.faults with
  | mk faults struck =>
      cases struck with
      | none => exact .inr (hof _ rfl)
      | some fault =>
          cases herror : fault.error with
          | none =>
              simp only [herror]
              exact .inr (hof _ rfl)
          | some e =>
              simp only [herror]
              exact .inl ⟨trivial, _, rfl⟩

theorem call_ok {operation : StoreOperation} {step : StoreM α} {a : α}
    (h : call operation step w = (.ok a, w')) : step w.store = (.ok a, w'.store) := by
  rcases call_store operation step w with ⟨-, e, he⟩ | ⟨hstore, hok⟩
  · rw [h] at he
    cases he
  · rw [h] at hstore hok
    exact Prod.ext ((hok a).mp rfl) hstore.symm

theorem store_ok {context : String} {operation : StoreOperation} {step : StoreM α} {a : α}
    (h : store context operation step w = (.ok a, w')) : step w.store = (.ok a, w'.store) :=
  call_ok (run_mapError_ok.mp h)

theorem run_call (hfaults : w.faults = []) (operation : StoreOperation) {x : StoreM α}
    {a : α} {s : Store} (h : x w.store = (.ok a, s)) :
    call operation x w = (.ok a, { w with store := s }) := by
  unfold call ofStore
  rw [hfaults]
  simp only [Fault.strike, h]

theorem run_store (hfaults : w.faults = []) (context : String) (operation : StoreOperation)
    {step : StoreM α} {a : α} {s : Store} (h : step w.store = (.ok a, s)) :
    store context operation step w = (.ok a, { w with store := s }) :=
  run_mapError_ok.mpr (run_call hfaults operation h)

def SameSaved (w w' : World) : Prop :=
  Store.SameSaved w.store w'.store

instance : Chained SameSaved where
  refl _ := rfl
  trans h h' := h'.trans h

theorem on_store {S : Store → Store → Prop} [hS : Chained S] {context : String}
    {operation : StoreOperation} {step : StoreM α} (h : Within S step) :
    Within (fun w w' => S w.store w'.store) (store context operation step) := by
  intro w
  unfold store
  rw [snd_mapError]
  rcases call_store operation step w with ⟨hstore, -⟩ | ⟨hstore, -⟩
  · rw [hstore]
    exact hS.refl w.store
  · rw [hstore]
    exact h w.store

/-- The store is as it was. -/
def SameStore (w w' : World) : Prop :=
  w'.store = w.store

instance : Chained SameStore where
  refl _ := rfl
  trans h h' := Eq.trans h' h

theorem within_mapError {R : World → World → Prop} {f : ε → δ} {effect : Effect ε α}
    (h : Within R effect) : Within R (effect.mapError f) := by
  intro w
  rw [snd_mapError]
  exact h w

theorem attempt_of_ok {effect : Effect ε α} {a : α} (h : effect w = (.ok a, w')) :
    (effect.attempt : Effect δ (Except ε α)) w = (.ok (.ok a), w') := by
  unfold attempt
  rw [h]

theorem attempt_of_defect {effect : Effect ε α} {d : Defect}
    (h : effect w = (.error (.defect d), w')) :
    (effect.attempt : Effect δ (Except ε α)) w = (.error (.defect d), w') := by
  unfold attempt
  rw [h]

/-- An attempt breaks off or gives the outcome as a value; either way it leaves what the effect
does. -/
theorem attempt_cases (effect : Effect ε α) (w : World) :
    (∃ r, (effect.attempt : Effect δ (Except ε α)) w = (.ok r, (effect w).2)) ∨
      ∃ d, (effect.attempt : Effect δ (Except ε α)) w = (.error (.defect d), (effect w).2) := by
  unfold attempt
  cases effect w with
  | mk r v =>
      cases r with
      | ok a => exact .inl ⟨.ok a, rfl⟩
      | error e =>
          cases e with
          | failed e => exact .inl ⟨.error e, rfl⟩
          | defect d => exact .inr ⟨d, rfl⟩

theorem within_attempt {R : World → World → Prop} {effect : Effect ε α} (h : Within R effect) :
    Within R (effect.attempt : Effect δ (Except ε α)) := by
  intro w
  rcases attempt_cases (δ := δ) effect w with ⟨r, hrun⟩ | ⟨d, hrun⟩
  · rw [hrun]
    exact h w
  · rw [hrun]
    exact h w

theorem within_ofExcept {R : World → World → Prop} [hR : Chained R] (r : Except ε α) :
    Within R (ofExcept r) := by
  cases r with
  | ok a => exact Within.pure a
  | error e => exact Within.throw _

theorem ofExcept_ok {r : Except ε α} {a : α}
    (h : (ofExcept r : Effect ε α) w = (.ok a, w')) : r = .ok a ∧ w = w' := by
  cases r with
  | error e => cases h
  | ok b =>
      cases h
      exact ⟨rfl, rfl⟩

theorem still_store {context : String} {operation : StoreOperation} {step : StoreM α}
    (h : Within Eq step) : Within SameStore (store context operation step) :=
  (on_store h).mono fun _ _ => Eq.symm

def opened (s : Store) : Store :=
  { s with saved := s.catalog :: s.saved }

theorem catalog_of_opened {s t : Store} (h : t = opened s) : t.catalog = s.catalog := by
  rw [h]
  rfl

/-- What comes of a transaction: one that ends well keeps what its body wrote, and one that ends in
any other way restores the catalog. -/
structure Transacted (body : Pass α) (w : World) (r : Except (Abort SyncError) α) (w' : World) :
    Prop where
  saved : w'.store.saved = w.store.saved
  kept : ∀ a, r = .ok a → ∃ v v', v.store = opened w.store ∧ body v = (.ok a, v') ∧
    w'.store.catalog = v'.store.catalog
  restored : ∀ e, r = .error e → w'.store.catalog = w.store.catalog

theorem call_of_total (operation : StoreOperation) {x : StoreM α} {f : Store → Store} {a : α}
    (hx : ∀ s, x s = (.ok a, f s)) (w : World) :
    (∃ e v, call operation x w = (.error e, v) ∧ v.store = w.store) ∨
      ∃ v, call operation x w = (.ok a, v) ∧ v.store = f w.store := by
  rcases call_store operation x w with ⟨hstore, e, he⟩ | ⟨hstore, hok⟩
  · exact .inl ⟨e, _, Prod.ext he rfl, hstore⟩
  · rw [hx] at hstore hok
    exact .inr ⟨_, Prod.ext ((hok a).mpr rfl) rfl, hstore⟩

theorem commit_cases (w : World) :
    (∃ v, commit w = (.ok (), v) ∧ v.store = { w.store with saved := w.store.saved.tail }) ∨
      ∃ e v, commit w = (.error e, v) ∧ v.store = w.store.undo := by
  unfold commit
  rcases call_of_total .commit (x := Store.commit) (fun s => rfl) w with
    ⟨e, v, hcall, hstore⟩ | ⟨v, hcall, hstore⟩
  · rw [hcall]
    refine .inr ⟨e, _, rfl, ?_⟩
    unfold abandon
    rw [hstore]
  · rw [hcall]
    exact .inl ⟨v, rfl, hstore⟩

theorem store_rollback (w : World) : (rollback w).2.store = w.store.undo := by
  unfold rollback
  rcases call_of_total .rollback (x := Store.rollback) (fun s => rfl) w with
    ⟨e, v, hcall, hstore⟩ | ⟨v, hcall, hstore⟩
  · rw [hcall]
    change v.store.undo = w.store.undo
    rw [hstore]
  · rw [hcall]
    exact hstore

theorem undo_of_saved {s : Store} {c : Catalog} {rest : List Catalog} (h : s.saved = c :: rest) :
    s.undo.catalog = c ∧ s.undo.saved = rest := by
  unfold Store.undo
  rw [h]
  exact ⟨rfl, rfl⟩

theorem run_rollback_fail (e : SyncError) (w : World) :
    ∃ e', ((rollback.ignore : Pass Unit) >>= fun _ => (fail e : Pass α)) w =
      (.error e', (rollback w).2) := by
  unfold ignore attempt
  rw [run_bind, run_bind]
  cases hrun : rollback w with
  | mk r v =>
      cases r with
      | ok a => exact ⟨_, rfl⟩
      | error e =>
          cases e with
          | failed e => exact ⟨_, rfl⟩
          | defect d => exact ⟨_, rfl⟩

/-- How a transaction ends depends on how its body did. -/
theorem run_transaction {lift : StoreError → SyncError} {body : Pass α} {v : World}
    (hbegin : call .begin Store.begin w = (.ok (), v)) :
    transaction lift body w = match body v with
      | (.ok a, u) => (commit.mapError lift >>= fun _ => pure a) u
      | (.error (.failed e), u) => (rollback.ignore >>= fun _ => fail e) u
      | (.error (.defect d), u) => (.error (.defect d), abandon u) := by
  unfold transaction store
  refine (bind_of_ok (run_mapError_ok.mpr hbegin)).trans ?_
  rw [run_bind]
  unfold attempt guarded
  cases body v with
  | mk outcome u =>
      cases outcome with
      | ok a => rfl
      | error e => cases e <;> rfl

theorem transacted {lift : StoreError → SyncError} {body : Pass α} (hbody : Within SameSaved body)
    {r : Except (Abort SyncError) α} (h : transaction lift body w = (r, w')) :
    Transacted body w r w' := by
  rcases call_of_total .begin (x := Store.begin) (fun s => rfl) w with
    ⟨e, v, hcall, hstore⟩ | ⟨v, hcall, hstore⟩
  · obtain ⟨e', hbegin⟩ := run_mapError_error (f := SyncError.store "opening transaction") hcall
    cases (bind_of_error hbegin).symm.trans h
    exact ⟨by rw [hstore], fun a ha => (by cases ha), fun _ _ => by rw [hstore]⟩
  rw [run_transaction hcall] at h
  have hsaved : (body v).2.store.saved = w.store.catalog :: w.store.saved :=
    (hbody v).trans (by rw [hstore])
  cases hrun : body v with
  | mk outcome v' =>
      rw [hrun] at h hsaved
      obtain ⟨hcatalog, hrest⟩ := undo_of_saved hsaved
      cases outcome with
      | ok a =>
          rcases commit_cases v' with ⟨u, hcommit, hu⟩ | ⟨e, u, hcommit, hu⟩
          · cases (bind_of_ok (run_mapError_ok.mpr hcommit)).symm.trans h
            refine ⟨by rw [hu, hsaved]; rfl, fun b hb => ?_, fun e he => (by cases he)⟩
            cases hb
            exact ⟨v, v', hstore, hrun, by rw [hu]⟩
          · obtain ⟨e', hfail⟩ := run_mapError_error (f := lift) hcommit
            cases (bind_of_error hfail).symm.trans h
            exact ⟨by rw [hu, hrest], fun b hb => (by cases hb), fun _ _ => by rw [hu, hcatalog]⟩
      | error e =>
          cases e with
          | failed e =>
              obtain ⟨e', hfail⟩ := run_rollback_fail (α := α) e v'
              cases hfail.symm.trans h
              have hu := store_rollback v'
              exact ⟨by rw [hu, hrest], fun a ha => (by cases ha), fun _ _ => by rw [hu, hcatalog]⟩
          | defect d =>
              cases h
              exact ⟨hrest, fun a ha => (by cases ha), fun _ _ => hcatalog⟩

theorem transaction_ok {lift : StoreError → SyncError} {body : Pass α}
    (hbody : Within SameSaved body) {a : α} (h : transaction lift body w = (.ok a, w')) :
    ∃ v v', v.store = opened w.store ∧ body v = (.ok a, v') ∧
      w'.store.catalog = v'.store.catalog :=
  (transacted hbody h).kept a rfl

/-- A reflexive relation of catalogs that a body stays within whenever it ends well, its transaction
always stays within. -/
theorem transaction_rel {S : Catalog → Catalog → Prop} (hrefl : ∀ c, S c c)
    {lift : StoreError → SyncError} {body : Pass α} (hbody : Within SameSaved body)
    (h : ∀ v a v', body v = (.ok a, v') → S v.store.catalog v'.store.catalog) (w : World) :
    S w.store.catalog (transaction lift body w).2.store.catalog := by
  have hdone := transacted hbody (Prod.eta (transaction lift body w)).symm
  cases hr : (transaction lift body w).1 with
  | ok a =>
      obtain ⟨v, v', hv, hrun, hcatalog⟩ := hdone.kept a hr
      rw [hcatalog, ← catalog_of_opened hv]
      exact h v a v' hrun
  | error e =>
      rw [hdone.restored e hr]
      exact hrefl _

theorem run_begin (hfaults : w.faults = []) :
    call .begin Store.begin w = (.ok (), { w with store := opened w.store }) :=
  run_call hfaults .begin rfl

theorem run_transaction_ok (hfaults : w.faults = []) {lift : StoreError → SyncError}
    {body : Pass α} {a : α} {v : World}
    (h : body { w with store := opened w.store } = (.ok a, v)) (hfaults' : v.faults = []) :
    transaction lift body w =
      (.ok a, { v with store := { v.store with saved := v.store.saved.tail } }) := by
  rw [run_transaction (run_begin hfaults), h]
  have hcall := run_call (α := Unit) hfaults' .commit (x := Store.commit) (a := ())
    (s := { v.store with saved := v.store.saved.tail }) rfl
  have hcommit : commit v =
      (.ok (), { v with store := { v.store with saved := v.store.saved.tail } }) := by
    unfold commit
    rw [hcall]
  exact bind_of_ok (run_mapError_ok.mpr hcommit)

theorem run_transaction_error (hfaults : w.faults = []) {lift : StoreError → SyncError}
    {body : Pass α} {e : Abort SyncError} {v : World}
    (h : body { w with store := opened w.store } = (.error e, v)) :
    ∃ e' v', transaction lift body w = (.error e', v') := by
  rw [run_transaction (run_begin hfaults), h]
  cases e with
  | failed e =>
      obtain ⟨e', hfail⟩ := run_rollback_fail (α := α) e v
      exact ⟨e', _, hfail⟩
  | defect d => exact ⟨_, _, rfl⟩

theorem run_transaction_defect (hfaults : w.faults = []) {lift : StoreError → SyncError}
    {body : Pass α} {d : Defect} {v : World}
    (h : body { w with store := opened w.store } = (.error (.defect d), v)) :
    transaction lift body w = (.error (.defect d), abandon v) := by
  rw [run_transaction (run_begin hfaults), h]

end Effect

end RepoCatalog
