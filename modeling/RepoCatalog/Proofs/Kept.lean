import RepoCatalog.Proofs.Conflict
import RepoCatalog.Proofs.Relay
import RepoCatalog.Proofs.Stake

/-!
# What passes keep

Whether a relation of worlds holds all along a pass is decided by what the pass asks of the store:
a relation that every question stays within, every part of a pass that only asks stays within; and
one that every write and every transaction stay within too, a whole pass stays within, as far as it
publishes nothing.
-/
namespace RepoCatalog

open Step
open Time (Duration)

namespace Effect

variable {α β ε δ : Type} {w w' : World}

/-- A relation of worlds that questions to the store stay within. -/
class Asks (R : World → World → Prop) : Prop extends Chained R where
  ask : ∀ {α : Type} (context : String) (operation : StoreOperation) {step : StoreM α},
    Within Eq step → Within R (store context operation step)

/-- A relation of worlds that all operations of the store stay within, as far as the names that
they store satisfy `p`. -/
class Admits (p : String → Prop) (R : World → World → Prop) : Prop extends Asks R where
  write : ∀ {α : Type} (context : String) (operation : StoreOperation) {step : StoreM α},
    Within (Store.Wrote p) step → Within R (store context operation step)
  transaction : ∀ {α : Type} (lift : StoreError → SyncError) {body : Pass α},
    Within R body → Within R (transaction lift body)

instance : Asks SameStore where
  ask _ _ _ h := still_store h

instance : Asks SameSaved where
  ask _ _ _ h := (still_store h).mono fun _ _ hsame => congrArg Store.saved hsame

instance {p : String → Prop} : Admits p SameSaved where
  write _ _ _ h := on_store (Store.Wrote.sameSaved h)
  transaction lift body hbody := fun w =>
    (transacted hbody (Prod.eta (transaction lift body w)).symm).saved

/-- Where all is in place, the catalogs are related. -/
def OnFurnished (S : Catalog → Catalog → Prop) (w w' : World) : Prop :=
  w.store.catalog.Furnished → S w.store.catalog w'.store.catalog

section
variable {S : Catalog → Catalog → Prop}

theorem OnFurnished.of_store (hrefl : ∀ c, S c c) (h : SameStore w w') : OnFurnished S w w' := by
  intro _
  rw [show w'.store = w.store from h]
  exact hrefl _

theorem asks_onFurnished (hrefl : ∀ c, S c c) (htrans : ∀ {c d e}, S c d → S d e → S c e)
    (hkeeps : ∀ {c d : Catalog}, c.Furnished → S c d → d.Furnished) : Asks (OnFurnished S) where
  refl _ := .of_store hrefl rfl
  trans h h' hs := htrans (h hs) (h' (hkeeps hs (h hs)))
  ask _ _ _ h := fun w => .of_store hrefl (still_store h w)

theorem onFurnished_transaction (hrefl : ∀ c, S c c) {lift : StoreError → SyncError}
    {body : Pass α} (hbody : Within SameSaved body)
    (h : ∀ v a v', v.store.catalog.Furnished → body v = (.ok a, v') →
      S v.store.catalog v'.store.catalog) : Within (OnFurnished S) (transaction lift body) :=
  transaction_rel (S := fun c d => c.Furnished → S c d) (fun c _ => hrefl c) hbody
    fun v a v' hrun hs => h v a v' hs hrun

end

/-- A relation of worlds that does not look at the store and that every call stays within. -/
class Outward (R : World → World → Prop) : Prop extends Chained R where
  call : ∀ {α : Type} (operation : StoreOperation) (step : StoreM α), Within R (call operation step)
  store : ∀ w s, R w { w with store := s }

section
variable {R : World → World → Prop} [hR : Outward R]

theorem outward_store (context : String) (operation : StoreOperation) (step : StoreM α) :
    Within R (store context operation step) :=
  within_mapError (hR.call operation step)

theorem outward_commit : Within R commit := by
  intro w
  have hcall := hR.call .commit Store.commit w
  unfold commit
  cases hrun : call .commit Store.commit w with
  | mk r v =>
      rw [hrun] at hcall
      cases r with
      | ok u => exact hcall
      | error e => exact hR.trans hcall (hR.store v _)

theorem outward_rollback : Within R rollback := by
  intro w
  have hcall := hR.call .rollback Store.rollback w
  unfold rollback
  cases hrun : call .rollback Store.rollback w with
  | mk r v =>
      rw [hrun] at hcall
      cases r with
      | ok u => exact hcall
      | error e => exact hR.trans hcall (hR.store v _)

theorem outward_guarded {body : Effect ε α} (hbody : Within R body) : Within R body.guarded := by
  intro w
  have h := hbody w
  unfold guarded
  cases hrun : body w with
  | mk r v =>
      rw [hrun] at h
      cases r with
      | ok a => exact h
      | error e =>
          cases e with
          | failed e => exact h
          | defect d => exact hR.trans h (hR.store v _)

theorem outward_transaction {lift : StoreError → SyncError} {body : Pass α}
    (hbody : Within R body) : Within R (transaction lift body) := by
  refine Within.bind (outward_store _ _ _) fun _ =>
    Within.bind (within_attempt (outward_guarded hbody)) fun outcome => ?_
  cases outcome with
  | ok a => exact Within.bind (within_mapError outward_commit) fun _ => Within.pure _
  | error e =>
      refine Within.bind (Within.bind (within_attempt outward_rollback) fun _ => Within.pure _)
        fun _ => Within.throw _

instance : Asks R where
  ask _ _ _ _ := outward_store _ _ _

instance {p : String → Prop} : Admits p R where
  write _ _ _ _ := outward_store _ _ _
  transaction _ _ hbody := outward_transaction hbody

end

/-- What happened to the store came about by statements that store names that satisfy `p`. -/
def Wrote (p : String → Prop) (w w' : World) : Prop :=
  Store.Wrote p w.store w'.store

section
variable {p : String → Prop}

instance : Chained (Wrote p) where
  refl w := Chained.refl w.store
  trans h h' := Chained.trans (R := Store.Wrote p) h h'

theorem Wrote.of_store (h : SameStore w w') : Wrote p w w' := by
  unfold Wrote
  rw [show w'.store = w.store from h]
  exact Chained.refl w.store

instance : Asks (Wrote p) where
  ask _ _ _ h := (still_store h).mono fun _ _ => .of_store

instance : Admits p (Wrote p) where
  write _ _ _ h := on_store h
  transaction lift body hbody := by
    intro w
    have hsaved : Within SameSaved body := fun v => (hbody v).saved
    refine ⟨(transacted hsaved (Prod.eta (transaction lift body w)).symm).saved, ?_⟩
    exact transaction_rel (fun _ => .refl) hsaved (fun v a v' hrun => (hbody.of_run hrun).catalog) w

end

end Effect

namespace Syncer

open Effect

variable {y : Syncer} {svc : Service} {sourced : Repo} {R : World → World → Prop}

section
variable [hR : Asks R]

theorem asks_checkRoom (y : Syncer) (svc : Service) : Within R (y.checkRoom svc) := by
  have hcount : ∀ users, Within R (store "counting user added repos" .countUserAdded
      (Store.countUserAdded users)) := fun users => hR.ask _ _ (Store.still_read _ _)
  unfold checkRoom
  split
  · exact Within.pure _
  · exact Within.bind (hcount _) fun _ => Within.bind (hcount _) fun _ =>
      within_mapError (within_ofExcept _)

theorem asks_counterFor (y : Syncer) (svc : Service) : Within R (y.counterFor svc) := by
  unfold counterFor
  split
  · exact Within.pure _
  · exact Within.bind (hR.ask _ _ (Store.still_read _ _)) fun _ =>
      Within.bind (within_mapError (within_ofExcept _)) fun _ => Within.pure _

theorem asks_knownFor (y : Syncer) (counter : Option Counter) : Within R (y.knownFor counter) := by
  unfold knownFor
  split
  · exact Within.bind (hR.ask _ _ (Store.still_read _ _)) fun _ => Within.pure _
  · exact Within.pure _

theorem asks_itemsOf (y : Syncer) (svc : Service) : Within R (y.itemsOf svc) :=
  within_mapError (within_ofExcept _)

theorem asks_allowsPrivate (y : Syncer) (svc : Service) : Within R (y.allowsPrivate svc) := by
  unfold allowsPrivate
  split
  · exact Within.pure _
  · split
    · exact Within.pure _
    · exact hR.ask _ _ (Store.still_read _ _)

theorem asks_listRelated (sourced : List Repo) : Within R (listRelated sourced) := by
  rw [listRelated_eq]
  exact Within.bind (Within.mapM fun _ _ => hR.ask _ _ (Store.still_listRepos _)) fun _ =>
    Within.pure _

theorem asks_cloudDefault (serviceType : String) : Within R (cloudDefault serviceType) := by
  unfold cloudDefault
  split
  · exact Within.throw _
  · refine Within.bind (hR.ask _ _ (Store.still_listServices _)) fun found => ?_
    split
    · exact Within.throw _
    · exact Within.pure _

end

section
variable {p : String → Prop} [hR : Admits p R]

theorem admits_introduce (y : Syncer) (svc : Service) (hname : p sourced.name) :
    Within R (y.introduce svc sourced) :=
  Within.bind (hR.write _ _ (Store.wrote_createMember svc (by exact hname))) fun _ => Within.pure _

theorem admits_refresh (y : Syncer) (svc : Service) (existing : Repo) (hname : p sourced.name) :
    Within R (y.refresh svc existing sourced) := by
  unfold refresh
  simp only []
  split
  · exact Within.bind (hR.write _ _ (Store.wrote_updateMember svc (by exact hname))) fun _ =>
      Within.pure _
  · exact Within.pure _

theorem admits_reconcile (y : Syncer) (svc : Service) (hname : p sourced.name) :
    Within R (y.reconcile svc sourced) := by
  have hdisplace : ∀ rival, Within R (y.displace rival) := by
    intro rival
    cases rival with
    | none => exact Within.pure _
    | some r => exact Within.bind (hR.write _ _ (Store.wrote_deleteRepos _)) fun _ => Within.pure _
  unfold reconcile
  refine Within.bind (hR.ask _ _ (Store.still_listRepos _)) fun matching => ?_
  split
  · exact Within.throw _
  · refine Within.bind (hdisplace _) fun ds => ?_
    split
    · exact Within.bind (admits_refresh y svc _ hname) fun _ => Within.pure _
    · exact Within.bind (asks_checkRoom y svc) fun _ =>
        Within.bind (admits_introduce y svc hname) fun _ => Within.pure _

theorem admits_reconcileNew (y : Syncer) (svc : Service) (hname : p sourced.name) :
    Within R (y.reconcileNew svc sourced) := by
  refine Within.bind (hR.ask _ _ (Store.still_listRepos _)) fun known => ?_
  split
  · exact admits_introduce y svc hname
  · exact Within.pure _

end

theorem within_recordVisit [Chained R] (y : Syncer) (svc : Service) (interval : Duration)
    (hvisit : ∀ visited : Service, visited.id = svc.id →
      Within R (store "updating external service" .putService (Store.putService visited))) :
    Within R (y.recordVisit svc interval) := by
  unfold recordVisit
  split
  · exact Within.throw _
  · exact Within.bind (hvisit _ rfl) fun _ => Within.pure _

theorem name_of_plan {sourced : List Repo} {stake : Stake} {x : Repo}
    (hx : x ∈ (plan svc sourced stake).modified ++ (plan svc sourced stake).added) :
    ∃ r ∈ sourced, x.name = r.name := by
  obtain ⟨dropped, hresolved⟩ := Diff.resolved (Diff.between (some svc.urn)
    (sourced.map (withStoredClaims (claimsBySpec stake.stored))) stake.stored) stake.conflicting
  unfold plan at hx
  simp only [] at hx
  rw [hresolved.modified, hresolved.added, ← List.filter_append] at hx
  obtain ⟨z, hz, hname⟩ := Diff.name_of_between (List.mem_filter.mp hx).1
  obtain ⟨r, hr, rfl⟩ := List.mem_map.mp hz
  refine ⟨r, hr, hname.trans ?_⟩
  unfold withStoredClaims
  split <;> rfl

theorem admits_applyBatch {p : String → Prop} [hR : Admits p R] (y : Syncer) (svc : Service)
    {sourced : List Repo} (hnames : ∀ r ∈ sourced, p r.name) (least : Duration)
    (hvisit : ∀ visited : Service, visited.id = svc.id →
      Within R (store "updating external service" .putService (Store.putService visited))) :
    Within R (y.applyBatch svc sourced least) := by
  have hplan : ∀ stake, ∀ x ∈ (plan svc sourced stake).modified ++ (plan svc sourced stake).added,
      p x.name := by
    intro stake x hx
    obtain ⟨r, hr, hname⟩ := name_of_plan hx
    exact hname ▸ hnames r hr
  refine Within.bind (hR.ask _ _ (Store.still_listRepos _)) fun held =>
    Within.bind (asks_listRelated sourced) fun found =>
    Within.bind (hR.write _ _ (Store.wrote_editMembers _)) fun _ =>
    Within.bind (hR.write _ _ (Store.wrote_deleteRepos _)) fun _ =>
    Within.bind (hR.write _ _ (Store.wrote_putRepos fun r hr => ?_)) fun ms =>
    Within.bind (hR.write _ _ (Store.wrote_putRepos fun r hr => ?_)) fun as =>
    Within.bind (hR.write _ _ (Store.wrote_editMembers _)) fun _ =>
    Within.bind (within_recordVisit y svc _ hvisit) fun _ =>
    Within.bind (fun w => hR.refl w) fun isCancelled => ?_
  · obtain ⟨x, hx, rfl⟩ := List.mem_map.mp hr
    exact hplan _ x (List.mem_append_left _ hx)
  · obtain ⟨x, hx, rfl⟩ := List.mem_map.mp hr
    exact hplan _ x (List.mem_append_right _ hx)
  · split
    · exact Within.throw _
    · exact Within.pure _

/-- A relation of worlds, of readings. -/
def OnWorld (R : World → World → Prop) (r r' : Reading) : Prop :=
  R r.world r'.world

instance [hR : Chained R] : Chained (OnWorld R) where
  refl r := hR.refl r.world
  trans h h' := hR.trans h h'

theorem within_listingHook [hR : Chained R] {repo : Repo}
    (hinsert : Within R (y.insertIfNew svc repo)) :
    Within (OnWorld R) (y.listingHook svc repo) := by
  refine Within.bind (fun r => ?_) fun _ r => ?_
  · unfold countListed
    split
    · exact hR.refl r.world
    · split
      · exact hR.refl r.world
      · exact hR.refl r.world
  · unfold insertEarly
    split
    · exact hR.refl r.world
    · split
      · exact hR.refl r.world
      · exact within_attempt (δ := SyncError) hinsert r.world

theorem within_readListing [hR : Chained R] {items : List Item}
    (hinsert : ∀ repo, .ok repo ∈ items → Within R (y.insertIfNew svc repo))
    (counter : Option Counter) (known : Option (List Spec)) :
    Within R (y.readListing svc counter known items) := by
  intro w
  have hread : OnWorld R ⟨w, counter, known⟩ (Listing.collect (y.listingHook svc)
      (fun r => r.world.isCancelled) (.failed .cancelled) y.settings.channelCapacity items
      ⟨w, counter, known⟩).2 :=
    Listing.collect_rel fun repo hrepo => within_listingHook (hinsert repo hrepo)
  exact hread

theorem world_note (s : Stream) (r : Except (Abort SyncError) Diff) :
    (s.note r).1.world = s.world := by
  cases r with
  | ok d => rfl
  | error e => cases e <;> rfl

theorem world_refuse (s : Stream) (e : SyncError) : (s.refuse e).1.world = s.world := by
  unfold Stream.refuse
  simp only []
  split <;> rfl

def streamReader (y : Syncer) (svc : Service) (allowed : Bool) : Reader Stream :=
  ⟨y.takeItem svc allowed, fun s => s.world.isCancelled⟩

theorem readStream_eq (y : Syncer) (svc : Service) (allowed : Bool) (items : List Item) (w : World) :
    y.readStream svc allowed items w =
      let read := (y.streamReader svc allowed).readAll (Stream.start w) items
      match read.1.defect, read.2 with
      | some d, _ => (.error (.defect d), read.1.world)
      | none, .cancelled => (.error (.failed .cancelled), read.1.world)
      | none, _ => (.ok read.1, read.1.world) := by
  obtain ⟨hstate, hending⟩ := Relay.run_start (y.streamReader svc allowed)
    y.settings.channelCapacity items (Stream.start w)
  unfold readStream
  unfold streamReader at *
  simp only [hending, hstate]
  cases Reader.readAll _ _ items with
  | mk s ending => cases ending <;> cases s.defect <;> rfl

theorem snd_readStream (y : Syncer) (svc : Service) (allowed : Bool) (items : List Item) (w : World) :
    (y.readStream svc allowed items w).2 =
      ((y.streamReader svc allowed).readAll (Stream.start w) items).1.world := by
  rw [readStream_eq]
  simp only []
  split <;> rfl

theorem within_readAll [hR : Chained R] {items : List Item}
    (hsync : ∀ repo, .ok repo ∈ items → Within R (y.sync svc repo)) (allowed : Bool) (s : Stream) :
    R s.world ((y.streamReader svc allowed).readAll s items).1.world := by
  let onWorld : Stream → Stream → Prop := fun s s' => R s.world s'.world
  have : Chained onWorld := ⟨fun s => hR.refl s.world, fun h h' => hR.trans h h'⟩
  refine Reader.readAll_rel (y.streamReader svc allowed) (R := onWorld) items ?_ s
  intro item hitem s
  change R s.world (y.takeItem svc allowed s item).1.world
  cases item with
  | error e =>
      unfold takeItem
      simp only [world_refuse]
      exact hR.refl s.world
  | ok repo =>
      unfold takeItem
      simp only []
      split
      · exact hR.refl s.world
      · change R s.world (Stream.note { s with world := (y.sync svc repo s.world).2 }
          (y.sync svc repo s.world).1).1.world
        rw [world_note]
        exact hsync repo hitem s.world

theorem within_readStream [hR : Chained R] {items : List Item}
    (hsync : ∀ repo, .ok repo ∈ items → Within R (y.sync svc repo)) (allowed : Bool) :
    Within R (y.readStream svc allowed items) := by
  intro w
  rw [snd_readStream]
  exact within_readAll hsync allowed (Stream.start w)

theorem still_publish (y : Syncer) (d : Diff) : Within SameStore (y.publish d) := by
  intro w
  unfold publish
  split
  · rfl
  · rfl

section
variable {p : String → Prop} [hR : Admits p R]

theorem within_publishSome [Chained R] (hpublish : ∀ d, Within R (y.publish d)) (d : Diff) :
    Within R (y.publishSome d) := by
  unfold publishSome
  split
  · exact Within.pure _
  · exact hpublish d

theorem still_publishSome (y : Syncer) (d : Diff) : Within SameStore (y.publishSome d) :=
  within_publishSome (still_publish y) d

theorem admits_sync (hpublish : ∀ d, Within R (y.publish d)) (hname : p sourced.name) :
    Within R (y.sync svc sourced) :=
  Within.bind (hR.transaction _ (admits_reconcile y svc hname)) fun d =>
    Within.bind (within_publishSome hpublish d) fun _ => Within.pure _

theorem admits_insertIfNew (hpublish : ∀ d, Within R (y.publish d)) (hname : p sourced.name) :
    Within R (y.insertIfNew svc sourced) :=
  Within.bind (hR.transaction _ (admits_reconcileNew y svc hname)) fun d =>
    within_publishSome hpublish d

end

/-- What is left of the final sweep once its transaction is over. -/
def tellSwept (y : Syncer) (swept : List Int) : Pass Bool :=
  if swept.isEmpty then return false
  else do
    let deleted ← Effect.store "listing swept repos" .listRepos
      (Store.listRepos { RepoQuery.all with ids := swept, withDeleted := true })
    y.publish { Diff.empty with deleted }
    return true

theorem sweepUnseen_eq (y : Syncer) (svc : Service) (keep : List Int) :
    y.sweepUnseen svc keep = transaction (.store "sweeping unseen repos")
      (store "sweeping unseen repos" .sweep (Store.sweep svc keep)) >>= y.tellSwept := rfl

theorem asks_tellSwept [hR : Asks R] (hpublish : ∀ d, Within R (y.publish d)) (swept : List Int) :
    Within R (y.tellSwept swept) := by
  unfold tellSwept
  split
  · exact Within.pure _
  · exact Within.bind (hR.ask _ _ (Store.still_listRepos _)) fun _ =>
      Within.bind (hpublish _) fun _ => Within.pure _

theorem admits_sweepUnseen (p : String → Prop) [hR : Admits p R]
    (hpublish : ∀ d, Within R (y.publish d)) (keep : List Int) :
    Within R (y.sweepUnseen svc keep) := by
  rw [sweepUnseen_eq]
  exact Within.bind (hR.transaction _ (hR.write _ _ (Store.wrote_sweep svc keep)))
    (asks_tellSwept hpublish)

end Syncer

end RepoCatalog
