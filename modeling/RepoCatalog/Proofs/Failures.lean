import RepoCatalog.Proofs.Reach

/-!
# How passes fail

Of all that stops a pass before it has committed, nothing is the bare report of a failure of
credentials: what the source, the store, the quotas and a cancellation say is wrapped or named
otherwise.
-/
namespace RepoCatalog

open Step
open Time (Duration)

namespace SyncError

/-- Whether this is the bare report of a failure of credentials. -/
def isCredentialReport : SyncError → Bool
  | .unauthorized => true
  | .forbidden => true
  | .accountSuspended => true
  | _ => false

theorem isCredentialReport_of_failure {e f : SyncError} (h : e.credentialFailure? = some f) :
    f.isCredentialReport = true := by
  unfold credentialFailure? at h
  split at h
  · cases h
    rfl
  · split at h
    · cases h
      rfl
    · split at h
      · cases h
        rfl
      · cases h

end SyncError

namespace Abort

variable {ε δ : Type}

/-- What ends an effect once its errors are renamed. -/
def map (f : ε → δ) : Abort ε → Abort δ
  | .failed e => .failed (f e)
  | .defect d => .defect d

/-- Whether this is anything but the bare report of a failure of credentials. -/
def Genuine : Abort SyncError → Prop
  | .failed e => e.isCredentialReport = false
  | .defect _ => True

/-- Whatever the store, a cancellation or a defect does to a pass is among `p`. -/
structure Mundane (p : Abort SyncError → Prop) : Prop where
  store : ∀ context e, p (.failed (.store context e))
  cancelled : p (.failed .cancelled)
  defect : ∀ d, p (.defect d)

theorem mundane_genuine : Mundane Genuine :=
  ⟨fun _ _ => rfl, rfl, fun _ => trivial⟩

/-- Whether this is an error and no defect. -/
def IsError : Abort ε → Prop
  | .failed _ => True
  | .defect _ => False

end Abort

namespace Effect

variable {α β ε δ : Type} {w w' : World}

/-- Whatever ends the step without a result satisfies `p`. -/
def Fails {σ : Type} (p : Abort ε → Prop) (x : ExceptT (Abort ε) (StateM σ) α) : Prop :=
  ∀ s e t, x s = (.error e, t) → p e

section
variable {σ : Type} {p : Abort ε → Prop}

theorem Fails.mono {q : Abort ε → Prop} {x : ExceptT (Abort ε) (StateM σ) α} (hx : Fails q x)
    (h : ∀ e, q e → p e) : Fails p x :=
  fun s e t hrun => h e (hx s e t hrun)

theorem Fails.pure (a : α) : Fails p (Pure.pure a : ExceptT (Abort ε) (StateM σ) α) := by
  intro s e t h
  cases h

theorem Fails.fail {e : ε} (he : p (.failed e)) : Fails p (fail e : Effect ε α) := by
  intro w e' w' h
  cases h
  exact he

theorem Fails.breakOff {d : Defect} (hd : p (.defect d)) : Fails p (breakOff d : Effect ε α) := by
  intro w e w' h
  cases h
  exact hd

theorem Fails.bindOf {P : α → Prop} {x : ExceptT (Abort ε) (StateM σ) α}
    {f : α → ExceptT (Abort ε) (StateM σ) β} (hx : Fails p x)
    (hP : ∀ s a t, x s = (.ok a, t) → P a) (hf : ∀ a, P a → Fails p (f a)) :
    Fails p (x >>= f) := by
  intro s e u h
  rcases bind_cases h with ⟨e', hrun, he⟩ | ⟨a, t, hrun, hrest⟩
  · cases he
    exact hx s e u hrun
  · exact hf a (hP s a t hrun) t e u hrest

theorem Fails.bind {x : ExceptT (Abort ε) (StateM σ) α} {f : α → ExceptT (Abort ε) (StateM σ) β}
    (hx : Fails p x) (hf : ∀ a, Fails p (f a)) : Fails p (x >>= f) :=
  hx.bindOf (P := fun _ => True) (fun _ _ _ _ => trivial) fun a _ => hf a

theorem Fails.mapM {xs : List β} {f : β → ExceptT (Abort ε) (StateM σ) α}
    (hf : ∀ b, Fails p (f b)) : Fails p (xs.mapM f) := by
  induction xs with
  | nil => exact .pure []
  | cons b bs ih =>
      rw [List.mapM_cons]
      exact (hf b).bind fun _ => ih.bind fun _ => .pure _

theorem Fails.mapError {f : δ → ε} {x : Effect δ α} (hx : Fails (fun e => p (e.map f)) x) :
    Fails p (x.mapError f) := by
  intro w e w' h
  unfold Effect.mapError at h
  cases hrun : x w with
  | mk r v =>
      rw [hrun] at h
      cases r with
      | ok a => cases h
      | error e' => cases e' <;> cases h <;> exact hx w _ _ hrun

theorem fails_ofExcept {r : Except ε α} (h : ∀ e, r = .error e → p (.failed e)) :
    Fails p (ofExcept r) := by
  cases r with
  | ok a => exact .pure a
  | error e => exact .fail (h e rfl)

end

theorem fails_call (operation : StoreOperation) (step : StoreM α) :
    Fails Abort.IsError (call operation step) := by
  have hof : ∀ v : World, ∀ e w', ofStore step v = (.error e, w') → e.IsError := by
    intro v e w' h
    unfold ofStore at h
    split at h
    · cases h
    · cases h
      trivial
  intro w e w' h
  unfold call at h
  simp only [] at h
  split at h
  · exact hof _ _ _ h
  · split at h
    · cases h
      trivial
    · exact hof _ _ _ h

theorem fails_store {p : Abort SyncError → Prop} (context : String) (operation : StoreOperation)
    (step : StoreM α) (hp : ∀ e, p (.failed (.store context e))) :
    Fails p (store context operation step) := by
  refine Fails.mapError ((fails_call operation step).mono fun e he => ?_)
  cases e with
  | failed e => exact hp e
  | defect d => exact he.elim

/-- An outcome as a value is no failure; only what breaks off still does. -/
theorem Fails.attempt {p : Abort δ → Prop} {x : Effect ε α}
    (hx : ∀ w d w', x w = (.error (.defect d), w') → p (.defect d)) :
    Fails p (x.attempt : Effect δ (Except ε α)) := by
  intro w e w' h
  unfold Effect.attempt at h
  cases hrun : x w with
  | mk r v =>
      rw [hrun] at h
      cases r with
      | ok a => cases h
      | error e' =>
          cases e' with
          | failed e' => cases h
          | defect d =>
              cases h
              exact hx w d _ hrun

theorem fails_commit : Fails Abort.IsError commit := by
  intro w e w' h
  unfold commit at h
  cases hrun : call .commit Store.commit w with
  | mk r v =>
      rw [hrun] at h
      cases r with
      | ok u => cases h
      | error e' =>
          cases h
          exact fails_call .commit Store.commit w e v hrun

theorem fails_rollback : Fails Abort.IsError rollback := by
  intro w e w' h
  unfold rollback at h
  cases hrun : call .rollback Store.rollback w with
  | mk r v =>
      rw [hrun] at h
      cases r with
      | ok u => cases h
      | error e' =>
          cases h
          exact fails_call .rollback Store.rollback w e v hrun

theorem transaction_error {p : Abort SyncError → Prop}
    (hopening : ∀ e, p (.failed (.store "opening transaction" e))) {lift : StoreError → SyncError}
    (hlift : ∀ e, p (.failed (lift e))) {body : Pass α} {e : Abort SyncError}
    (h : transaction lift body w = (.error e, w'))
    (hbody : ∀ v e v', v.store = opened w.store → body v = (.error e, v') → p e) : p e := by
  rcases call_of_total .begin (x := Store.begin) (fun s => rfl) w with
    ⟨e', v, hcall, -⟩ | ⟨v, hcall, hopened⟩
  · obtain ⟨e'', hbegin⟩ := run_mapError_error (f := SyncError.store "opening transaction") hcall
    cases (bind_of_error hbegin).symm.trans h
    exact fails_store _ _ _ hopening w _ _ hbegin
  rw [run_transaction hcall] at h
  cases hrun : body v with
  | mk outcome u =>
      rw [hrun] at h
      cases outcome with
      | ok a =>
          have hcommit : Fails p (commit.mapError lift) := Fails.mapError (fails_commit.mono
            fun e he => by
              cases e with
              | failed e => exact hlift e
              | defect d => exact he.elim)
          exact (hcommit.bind fun _ => .pure a) u e w' h
      | error e' =>
          have he' := hbody v e' u hopened hrun
          cases e' with
          | failed e' =>
              have hrollback : Fails p (rollback.ignore : Pass Unit) :=
                (Fails.attempt fun v d v' h => (fails_rollback v _ v' h).elim).bind fun _ => .pure _
              exact (hrollback.bind fun _ => .fail he') u e w' h
          | defect d =>
              cases h
              exact he'

theorem fails_transaction {p : Abort SyncError → Prop}
    (hopening : ∀ e, p (.failed (.store "opening transaction" e))) {lift : StoreError → SyncError}
    (hlift : ∀ e, p (.failed (lift e))) {body : Pass α} (hbody : Fails p body) :
    Fails p (transaction lift body) :=
  fun _ _ _ h => transaction_error hopening hlift h fun v e v' _ => hbody v e v'

end Effect

namespace Syncer

open Effect

variable {y : Syncer} {svc : Service}

theorem genuine_mapError {α δ : Type} (x : Effect δ α) (f : δ → SyncError)
    (hf : ∀ e, (f e).isCredentialReport = false) : Fails Abort.Genuine (x.mapError f) := by
  refine Fails.mapError fun w e w' _ => ?_
  cases e with
  | failed e => exact hf e
  | defect d => trivial

theorem genuine_store {α : Type} (context : String) (operation : StoreOperation)
    (step : StoreM α) : Fails Abort.Genuine (store context operation step) :=
  fails_store context operation step fun _ => rfl

section
variable {p : Abort SyncError → Prop}

theorem fails_countListed (hquota : ∀ e, p (.failed (.quota e))) : Fails p countListed := by
  intro r e t h
  unfold countListed at h
  split at h
  · cases h
  · split at h
    · cases h
    · cases h
      exact hquota _

/-- An early insertion that fails is passed over, unless it breaks off. -/
theorem fails_insertEarly (y : Syncer) (svc : Service) (repo : Repo)
    (hbreaks : ∀ w d w', y.insertIfNew svc repo w = (.error (.defect d), w') → p (.defect d)) :
    Fails p (y.insertEarly svc repo) := by
  intro r e t h
  unfold insertEarly at h
  split at h
  · cases h
  · split at h
    · cases h
    · have hattempt : Fails p ((y.insertIfNew svc repo).attempt : Pass (Except SyncError Unit)) :=
        Fails.attempt hbreaks
      cases hrun : ((y.insertIfNew svc repo).attempt : Pass (Except SyncError Unit)) r.world with
      | mk outcome v =>
          simp only [hrun] at h
          cases outcome with
          | ok a => cases h
          | error e' =>
              cases h
              exact hattempt r.world e v hrun

theorem fails_listingHook (y : Syncer) (svc : Service) (repo : Repo)
    (hquota : ∀ e, p (.failed (.quota e)))
    (hbreaks : ∀ w d w', y.insertIfNew svc repo w = (.error (.defect d), w') → p (.defect d)) :
    Fails p (y.listingHook svc repo) :=
  (fails_countListed hquota).bind fun _ => fails_insertEarly y svc repo hbreaks

end

theorem genuine_reading (y : Syncer) (svc : Service) : Fails Abort.Genuine (y.reading svc) := by
  have hcounter : Fails Abort.Genuine (y.counterFor svc) := by
    unfold counterFor
    split
    · exact .pure _
    · have hquota : ∀ r, Fails Abort.Genuine (checkQuota r) :=
        fun r => genuine_mapError _ _ fun _ => rfl
      exact (genuine_store _ _ _).bind fun _ => (hquota _).bind fun _ => .pure _
  have hknown : ∀ counter, Fails Abort.Genuine (y.knownFor counter) := by
    intro counter
    unfold knownFor
    split
    · exact (genuine_store _ _ _).bind fun _ => .pure _
    · exact .pure _
  have hitems : Fails Abort.Genuine (y.itemsOf svc) := genuine_mapError _ _ fun _ => rfl
  have hhook : ∀ repo, Fails Abort.Genuine (y.listingHook svc repo) := fun repo =>
    fails_listingHook y svc repo (fun _ => rfl) fun _ _ _ _ => trivial
  refine hcounter.bind fun counter => (hknown counter).bind fun known => hitems.bind fun items => ?_
  intro w e w' h
  obtain ⟨t, hrun, -⟩ := readListing_run h
  have hcancelled : Abort.Genuine (.failed .cancelled) := rfl
  exact Listing.collect_error hcancelled hhook hrun

theorem genuine_judge (svc : Service) (listing : Listing) :
    Fails Abort.Genuine (Effect.ofExcept (judge svc listing)) := by
  unfold judge
  split
  · exact .pure _
  · simp only []
    split
    · exact .pure _
    · exact .fail rfl

section
variable {p : Abort SyncError → Prop}

theorem fails_allowsPrivate (y : Syncer) (svc : Service)
    (hp : ∀ e, p (.failed (.store "checking private code permission" e))) :
    Fails p (y.allowsPrivate svc) := by
  unfold allowsPrivate
  split
  · exact .pure _
  · split
    · exact .pure _
    · exact fails_store _ _ _ hp

variable (hp : Abort.Mundane p)
include hp

theorem fails_applyBatch (y : Syncer) (svc : Service) (sourced : List Repo) (least : Duration) :
    Fails p (y.applyBatch svc sourced least) := by
  have hstore : ∀ {α : Type} (context : String) (operation : StoreOperation) (step : StoreM α),
      Fails p (store context operation step) :=
    fun context operation step => fails_store context operation step (hp.store context)
  have hrelated : Fails p (listRelated sourced) := by
    rw [listRelated_eq]
    exact (Fails.mapM fun _ => hstore _ _ _).bind fun _ => .pure _
  have hvisit : ∀ interval, Fails p (y.recordVisit svc interval) := by
    intro interval
    unfold recordVisit
    split
    · exact .breakOff (hp.defect _)
    · exact (hstore _ _ _).bind fun _ => .pure _
  have hcancelled : Fails p (isCancelled : Pass Bool) := by
    intro w e w' h
    cases h
  refine (hstore _ _ _).bind fun held => hrelated.bind fun found =>
    (hstore _ _ _).bind fun _ => (hstore _ _ _).bind fun _ =>
    (hstore _ _ _).bind fun ms => (hstore _ _ _).bind fun as =>
    (hstore _ _ _).bind fun _ => (hvisit _).bind fun _ =>
      hcancelled.bind fun isCancelled => ?_
  split
  · exact .fail hp.cancelled
  · exact .pure _

theorem fails_applied (y : Syncer) (svc : Service) (sourced : List Repo) (least : Duration) :
    Fails p (transaction .ofStore (y.applyBatch svc sourced least)) := by
  refine fails_transaction ?_ ?_ (fails_applyBatch hp y svc sourced least)
  · exact hp.store _
  · exact hp.store _

end

theorem publish_total (y : Syncer) (d : Diff) (w : World) :
    ∃ w', y.publish d w = (.ok (), w') := by
  unfold publish
  split
  · exact ⟨_, rfl⟩
  · exact ⟨_, rfl⟩

theorem publishSome_total (y : Syncer) (d : Diff) (w : World) :
    ∃ w', y.publishSome d w = (.ok (), w') := by
  unfold publishSome
  split
  · exact ⟨w, rfl⟩
  · exact publish_total y d w

theorem fails_publish {p : Abort SyncError → Prop} (y : Syncer) (d : Diff) :
    Fails p (y.publish d) := by
  intro w e w' h
  obtain ⟨v, hpublish⟩ := publish_total y d w
  cases h.symm.trans hpublish

theorem fails_publishSome {p : Abort SyncError → Prop} (y : Syncer) (d : Diff) :
    Fails p (y.publishSome d) := by
  unfold publishSome
  split
  · exact .pure ()
  · exact fails_publish y d

theorem isError_store {α : Type} (context : String) (operation : StoreOperation)
    (step : StoreM α) : Fails Abort.IsError (store context operation step) :=
  fails_store context operation step fun _ => trivial

theorem isError_displace (y : Syncer) (rival : Option Repo) :
    Fails Abort.IsError (y.displace rival) := by
  cases rival with
  | none => exact .pure []
  | some x => exact (isError_store _ _ _).bind fun _ => .pure _

theorem isError_refresh (y : Syncer) (svc : Service) (existing sourced : Repo) :
    Fails Abort.IsError (y.refresh svc existing sourced) := by
  unfold refresh
  simp only []
  split
  · exact (isError_store _ _ _).bind fun _ => .pure _
  · exact .pure _

theorem isError_checkRoom (y : Syncer) (svc : Service) : Fails Abort.IsError (y.checkRoom svc) := by
  unfold checkRoom
  split
  · exact .pure ()
  · exact (isError_store _ _ _).bind fun _ => (isError_store _ _ _).bind fun _ =>
      Fails.mapError (fails_ofExcept fun _ _ => trivial)

theorem isError_introduce (y : Syncer) (svc : Service) (sourced : Repo) :
    Fails Abort.IsError (y.introduce svc sourced) :=
  (isError_store _ _ _).bind fun _ => .pure _

theorem isError_insertIfNew (y : Syncer) (svc : Service) (repo : Repo) :
    Fails Abort.IsError (y.insertIfNew svc repo) := by
  have hbody : Fails Abort.IsError (y.reconcileNew svc repo) := by
    refine (isError_store _ _ _).bind fun known => ?_
    split
    · exact isError_introduce y svc repo
    · exact .pure _
  exact (fails_transaction (fun _ => trivial) (fun _ => trivial) hbody).bind fun d =>
    fails_publishSome y d

end Syncer

end RepoCatalog
