import RepoCatalog.Proofs.Orderly
import RepoCatalog.Sync

/-!
# Catalogs that passes reach

A catalog is reached from an empty one by passes over services and over single repositories, with
whatever faults, and by changes of services, users and jobs in between. In every such catalog a row
is live if and only if some service holds it.
-/
namespace RepoCatalog

open Step
open Time (Duration)

/-- What is asked of a syncer. -/
inductive Task where
  | visit (service : Int) (least : Duration)
  | sync (svc : Service) (repo : Repo)
  | syncRepo (repo : Repo)

namespace Syncer

def perform (y : Syncer) : Task → Pass Unit
  | .visit service least => y.syncService service least
  | .sync svc repo => do
    let _ ← y.sync svc repo
  | .syncRepo repo => do
    let _ ← y.syncRepo repo

/-- Every repository that a task brings up satisfies `p`, together with the service it is for. -/
def Brings (y : Syncer) (p : Service → Repo → Prop) (w : World) : Task → Prop
  | .visit service _ => ∀ svc, w.store.catalog.Holds svc → svc.id = service →
      ∀ items, y.sourceOf svc = .ok items → ∀ r, .ok r ∈ items → p svc r
  | .sync svc repo => p svc repo
  | .syncRepo repo => ∀ svc v, cloudDefault repo.spec.serviceType w = (.ok svc, v) → p svc repo

theorem Brings.mono {y : Syncer} {p q : Service → Repo → Prop} {w : World} {task : Task}
    (h : y.Brings p w task) (hpq : ∀ svc r, p svc r → q svc r) : y.Brings q w task := by
  cases task with
  | visit service least =>
      exact fun svc hsvc hid items hitems r hr => hpq svc r (h svc hsvc hid items hitems r hr)
  | sync svc repo => exact hpq svc repo h
  | syncRepo repo => exact fun svc v hrun => hpq svc repo (h svc v hrun)

end Syncer

namespace Catalog

/-- A catalog that passes reach whose repositories satisfy `p`. -/
inductive Reachable (p : Service → Repo → Prop) : Catalog → Prop where
  | start {c : Catalog} :
      c.repos = .empty → c.members = ∅ → c.Furnished → Reachable p c
  | elsewhere {c d : Catalog} :
      Reachable p c → d.repos = c.repos → d.members = c.members → d.Furnished → Reachable p d
  | pass {w : World} (y : Syncer) (task : Task) :
      Reachable p w.store.catalog → y.Brings p w task →
        Reachable p (y.perform task w).2.store.catalog

theorem Reachable.mono {p q : Service → Repo → Prop} {c : Catalog} (h : Reachable p c)
    (hpq : ∀ svc r, p svc r → q svc r) : Reachable q c := by
  induction h with
  | start hrepos hmembers hc => exact .start hrepos hmembers hc
  | elsewhere _ hrepos hmembers hd ih => exact .elsewhere ih hrepos hmembers hd
  | pass y task _ hbrings ih => exact .pass y task ih (hbrings.mono hpq)

end Catalog

namespace Store

theorem serviceOfRow_ok {id : Int} {row : ServiceRow} {svc : Service}
    (h : serviceOfRow id row = .ok svc) : row.toService? id = some svc := by
  unfold serviceOfRow at h
  cases hload : row.toService? id with
  | none =>
      rw [hload] at h
      cases h
  | some svc' =>
      rw [hload] at h
      cases h
      rfl

theorem getService_ok {s t : Store} (hs : s.catalog.Furnished) {id : Int} {svc : Service}
    (h : getService id s = (.ok svc, t)) : s.catalog.Holds svc ∧ svc.id = id ∧ t = s := by
  unfold getService at h
  rw [bind_of_ok (run_read hs.tables _ _)] at h
  cases hrow : (s.catalog.services.get? id).filter fun row => row.deletedAt.isNone with
  | none =>
      rw [hrow] at h
      cases h
  | some row =>
      rw [hrow] at h
      have hget := (Option.filter_eq_some_iff.mp hrow).1
      obtain ⟨hsvc, hstore⟩ := Prod.mk.inj (show (serviceOfRow id row, s) = _ from h)
      obtain ⟨hholds, hid⟩ := Catalog.holds_of_row hget (serviceOfRow_ok hsvc)
      exact ⟨hholds, hid, hstore.symm⟩

theorem holds_of_listServices {s t : Store} (hs : s.catalog.Furnished) {q : ServiceQuery}
    {found : List Service} {svc : Service} (h : listServices q s = (.ok found, t))
    (hsvc : svc ∈ found) : s.catalog.Holds svc := by
  unfold listServices at h
  rw [bind_of_ok (run_read hs.tables _ _)] at h
  obtain ⟨e, he, u, v, hrun⟩ := mem_of_mapM_ok h hsvc
  have hload := serviceOfRow_ok (congrArg Prod.fst hrun)
  have hlisted : e ∈ s.catalog.services.toList.filter fun e => q.accepts e.1 e.2 := by
    cases hlimit : q.limit with
    | none =>
        rw [hlimit] at he
        exact he
    | some limit =>
        rw [hlimit] at he
        exact List.mem_of_mem_take he
  have hrow := Table.get?_eq_some_iff.mpr (List.mem_filter.mp hlisted).1
  exact (Catalog.holds_of_row hrow hload).1

theorem visited_of_putService {s : Store} (hs : s.catalog.Furnished) {svc : Service}
    (hid : svc.id ≠ 0) : Catalog.Visited s.catalog (putService svc s).2.catalog ∨
      (putService svc s).2.catalog = s.catalog := by
  cases hrun : putService svc s with
  | mk r t =>
      cases r with
      | ok svc' => exact .inl (putService_ok hs hid hrun).1
      | error e => exact .inr (putService_error hrun)

end Store

namespace Syncer

open Effect Catalog

variable {y : Syncer} {svc : Service} {least : Duration}

/-- The same transactions are open, and a tidy catalog that holds the service stays tidy. -/
structure Tends (svc : Service) (w w' : World) : Prop where
  saved : w'.store.saved = w.store.saved
  tidy : w.store.catalog.Tidy → w.store.catalog.Holds svc → w'.store.catalog.Tidy

theorem Tends.of_orderly {w w' : World} (h : Orderly w w') : Tends svc w w' :=
  ⟨h.saved, fun hw _ => (h.tidy hw).1⟩

theorem Tends.before {w v w' : World} (h : Orderly w v) (h' : Tends svc v w') : Tends svc w w' := by
  refine ⟨h'.saved.trans h.saved, fun hw hsvc => ?_⟩
  obtain ⟨hv, hsetting⟩ := h.tidy hw
  exact h'.tidy hv (hsvc.of_sameSetting hsetting)

theorem Tends.after {w v w' : World} (h : Tends svc w v) (h' : Orderly v w') : Tends svc w w' :=
  ⟨h'.saved.trans h.saved, fun hw hsvc => (h'.tidy (h.tidy hw hsvc)).1⟩

theorem before_tends {α β : Type} {P : α → Prop} {x : Pass α} {f : α → Pass β}
    (hx : Within Orderly x) (hP : ∀ w a v, x w = (.ok a, v) → P a)
    (hf : ∀ a, P a → Within (Tends svc) (f a)) : Within (Tends svc) (x >>= f) :=
  Within.seq hx hP hf (fun _ _ => Tends.of_orderly) fun _ _ _ => Tends.before

theorem tends_putService (svc : Service) (context : String) {visited : Service}
    (hid : visited.id = svc.id) :
    Within (Tends svc) (store context .putService (Store.putService visited)) := by
  intro w
  unfold store
  rw [snd_mapError]
  rcases call_store .putService (Store.putService visited) w with ⟨hstore, -⟩ | ⟨hstore, -⟩
  · exact .of_orderly (.of_store hstore)
  · constructor
    · rw [hstore]
      exact Store.within_putService visited w.store
    · intro hw hsvc
      have hne : visited.id ≠ 0 := hid ▸ Int.ne_of_gt (hsvc.range hw.furnished).1
      rw [hstore]
      rcases Store.visited_of_putService hw.furnished hne with hvisited | hsame
      · exact hw.visited hvisited
      · rw [hsame]
        exact hw

theorem tends_recordVisit (y : Syncer) (svc : Service) (interval : Duration) :
    Within (Tends svc) (y.recordVisit svc interval) := by
  unfold recordVisit
  split
  · exact fun w => .of_orderly (.of_store rfl)
  · exact Within.seq (P := fun _ => True) (tends_putService svc _ rfl) (fun _ _ _ _ => trivial)
      (fun _ _ => Within.pure (R := Orderly) _) (fun _ _ h => h) fun _ _ _ => Tends.after

theorem saved_applyBatch (y : Syncer) (svc : Service) (sourced : List Repo) (least : Duration) :
    Within SameSaved (y.applyBatch svc sourced least) :=
  admits_applyBatch (p := fun _ => True) y svc (fun _ _ => trivial) least fun visited _ =>
    on_store (Store.within_putService visited)

theorem tends_applied (y : Syncer) {sourced : List Repo}
    (hlisted : ∀ r ∈ sourced, r.ListedBy svc) (least : Duration) :
    Within (Tends svc) (transaction .ofStore (y.applyBatch svc sourced least)) := by
  intro w
  cases hrun : transaction .ofStore (y.applyBatch svc sourced least) w with
  | mk r w' =>
      have hdone := transacted (saved_applyBatch y svc sourced least) hrun
      refine ⟨hdone.saved, fun hw hsvc => ?_⟩
      cases r with
      | ok diff =>
          obtain ⟨v, v', hv, hrun', hcatalog⟩ := hdone.kept diff rfl
          have hsame : v.store.catalog = w.store.catalog := catalog_of_opened hv
          rw [← hsame] at hw hsvc
          have hcarried := applyBatch_ok hw.furnished
            (Int.ne_of_gt (hsvc.range hw.furnished).1) hrun'
          have hd := feasible_plan (c := v.store.catalog) hlisted
          rw [hcatalog]
          exact hw.batched hsvc hd (batched hw.toRooted hsvc hd hcarried)
      | error e =>
          rw [hdone.restored e rfl]
          exact hw

theorem run_counterFor_of_site (howner : svc.owner? = none) (w : World) :
    y.counterFor svc w = (.ok none, w) := by
  unfold counterFor
  rw [howner]
  rfl

theorem counterFor_ok {counter : Option Counter} {w w' : World} (howner : svc.owner?.isSome = true)
    (h : y.counterFor svc w = (.ok counter, w')) : counter = some (.upTo y.quota.perUser) := by
  obtain ⟨user, huser⟩ := Option.isSome_iff_exists.mp howner
  unfold counterFor at h
  rw [huser] at h
  obtain ⟨added, v, -, h⟩ := bind_ok_iff.mp h
  obtain ⟨u, v', -, h⟩ := bind_ok_iff.mp h
  cases h
  rfl

theorem run_itemsOf {items : List Item} (hsource : y.sourceOf svc = .ok items) (w : World) :
    y.itemsOf svc w = (.ok items, w) := by
  unfold itemsOf
  rw [hsource]
  rfl

theorem itemsOf_ok {items : List Item} {w w' : World} (h : y.itemsOf svc w = (.ok items, w')) :
    y.sourceOf svc = .ok items ∧ w' = w := by
  have hrun := run_mapError_ok.mp h
  cases hsource : y.sourceOf svc with
  | ok found =>
      rw [hsource] at hrun
      cases hrun
      exact ⟨rfl, rfl⟩
  | error e =>
      rw [hsource] at hrun
      cases hrun

/-- The reading of a listing collects it, and what it leaves is the world of the last reading. -/
theorem readListing_run {counter : Option Counter} {known : Option (List Spec)}
    {items : List Item} {result : Except (Abort SyncError) Listing} {w w' : World}
    (h : y.readListing svc counter known items w = (result, w')) :
    ∃ t, Listing.collect (y.listingHook svc) (fun r => r.world.isCancelled) (.failed .cancelled)
      y.settings.channelCapacity items ⟨w, counter, known⟩ = (result, t) ∧ t.world = w' := by
  unfold readListing at h
  cases hrun : Listing.collect (y.listingHook svc) (fun r => r.world.isCancelled)
      (.failed .cancelled) y.settings.channelCapacity items ⟨w, counter, known⟩ with
  | mk r t =>
      rw [hrun] at h
      cases h
      exact ⟨t, rfl, rfl⟩

theorem readListing_ok {counter : Option Counter} {known : Option (List Spec)} {items : List Item}
    {listing : Listing} {w w' : World}
    (h : y.readListing svc counter known items w = (.ok listing, w')) :
    listing = .ofItems items := by
  obtain ⟨t, hrun, -⟩ := readListing_run h
  exact Listing.collect_ok hrun

/-- What a batch pass does before it writes anything: it reads what its source sends. -/
def reading (y : Syncer) (svc : Service) : Pass Listing := do
  let counter ← y.counterFor svc
  let known ← y.knownFor counter
  let items ← y.itemsOf svc
  y.readListing svc counter known items

theorem batch_eq (y : Syncer) (svc : Service) (least : Duration) : y.batch svc least = (do
    let listing ← y.reading svc
    let (sourced, failure) ← Effect.ofExcept (judge svc listing)
    let visible := if ← y.allowsPrivate svc then sourced else sourced.filter fun r => !r.isPrivate
    let diff ← Effect.transaction .ofStore (y.applyBatch svc visible least)
    y.publish diff
    match failure with
    | some failure => Effect.fail failure
    | none => pure ()) := by
  unfold batch reading
  symm
  refine (bind_assoc _ _ _).trans (bind_congr fun counter => ?_)
  refine (bind_assoc _ _ _).trans (bind_congr fun known => ?_)
  exact bind_assoc _ _ _

theorem reading_ok {listing : Listing} {w w' : World}
    (h : y.reading svc w = (.ok listing, w')) :
    ∃ items, y.sourceOf svc = .ok items ∧ listing = .ofItems items := by
  unfold reading at h
  obtain ⟨counter, w₁, -, h₁⟩ := bind_ok_iff.mp h
  obtain ⟨known, w₂, -, h₂⟩ := bind_ok_iff.mp h₁
  obtain ⟨items, w₃, hitems, hread⟩ := bind_ok_iff.mp h₂
  exact ⟨items, (itemsOf_ok hitems).1, readListing_ok hread⟩

/-- What questions and early insertions keep, the reading of a listing keeps. -/
theorem asks_reading {R : World → World → Prop} [hR : Asks R]
    (hinsert : ∀ items, y.sourceOf svc = .ok items → ∀ repo, .ok repo ∈ items →
      Within R (y.insertIfNew svc repo)) : Within R (y.reading svc) := by
  refine Within.bind (asks_counterFor y svc) fun counter =>
    Within.bind (asks_knownFor y counter) fun known => ?_
  refine Within.bindOf (asks_itemsOf y svc) (fun _ _ _ h => (itemsOf_ok h).1) fun items hitems => ?_
  exact within_readListing (hinsert items hitems) counter known

theorem within_reading (y : Syncer) (svc : Service) : Within Orderly (y.reading svc) :=
  asks_reading fun _ _ repo _ => within_insertIfNew y svc repo

theorem mem_of_judge {listing : Listing} {sourced : List Repo} {failure : Option SyncError}
    (h : judge svc listing = .ok (sourced, failure)) : ∀ r ∈ sourced, r ∈ listing.repos := by
  unfold judge at h
  split at h
  · cases h
    exact fun r hr => hr
  · simp only [] at h
    split at h
    · cases h
      intro r hr
      cases hr
    · cases h

theorem ok_of_judge {items : List Item} {sourced : List Repo} {failure : Option SyncError}
    (h : judge svc (.ofItems items) = .ok (sourced, failure)) : ∀ r ∈ sourced, .ok r ∈ items := by
  intro r hr
  obtain ⟨item, hitem, hrepo⟩ := List.mem_filterMap.mp (mem_of_judge h r hr)
  cases item with
  | ok repo =>
      cases hrepo
      exact hitem
  | error e => cases hrepo

theorem mem_of_allowed {allowed : Bool} {sourced : List Repo} {r : Repo}
    (h : r ∈ if allowed then sourced else sourced.filter fun r => !r.isPrivate) : r ∈ sourced := by
  split at h
  · exact h
  · exact (List.mem_filter.mp h).1

theorem tends_batch (hlists : ∀ items, y.sourceOf svc = .ok items →
    ∀ r, .ok r ∈ items → r.ListedBy svc) : Within (Tends svc) (y.batch svc least) := by
  rw [batch_eq]
  refine before_tends (within_reading y svc) (fun _ _ _ h => reading_ok h) ?_
  rintro listing ⟨items, hitems, rfl⟩
  refine before_tends (P := fun r => judge svc (.ofItems items) = .ok r) (within_ofExcept _)
    (fun _ _ _ h => (ofExcept_ok h).1) ?_
  rintro ⟨sourced, failure⟩ hjudged
  have hsourced : ∀ r ∈ sourced, r.ListedBy svc :=
    fun r hr => hlists items hitems r (ok_of_judge hjudged r hr)
  refine before_tends (P := fun _ => True) (asks_allowsPrivate y svc)
    (fun _ _ _ _ => trivial) fun allowed _ => ?_
  refine Within.seq (R := Tends svc) (S := Orderly) (P := fun _ => True)
    (tends_applied y ?_ least) (fun _ _ _ _ => trivial) (fun diff _ => ?_) (fun _ _ h => h)
    fun _ _ _ => Tends.after
  · intro r hr
    exact hsourced r (mem_of_allowed hr)
  · refine Within.bind (within_still (still_publish y diff)) fun _ => ?_
    split
    · exact Within.throw _
    · exact Within.pure _

theorem within_sweepUnseen (y : Syncer) (svc : Service) (keep : List Int) :
    Within Orderly (y.sweepUnseen svc keep) := by
  rw [sweepUnseen_eq]
  refine Within.bind (within_transaction (on_store (Store.within_sweep svc keep)) ?_)
    (asks_tellSwept fun d => within_still (still_publish y d))
  intro v ids v' hv hrun
  have hswept := Store.sweep_ok hv.furnished (store_ok hrun)
  exact ⟨hv.swept hswept, hswept.setting⟩

theorem tends_stream (hlists : ∀ items, y.sourceOf svc = .ok items →
    ∀ r, .ok r ∈ items → r.ListedBy svc) : Within (Tends svc) (y.stream svc least) := by
  unfold stream
  refine before_tends (P := fun _ => True) (asks_allowsPrivate y svc)
    (fun _ _ _ _ => trivial) fun allowed _ => ?_
  refine before_tends (asks_itemsOf y svc) (fun _ _ _ h => (itemsOf_ok h).1)
    fun items hitems => ?_
  have hread : Within Orderly (y.readStream svc allowed items) :=
    within_readStream (fun r hr => within_sync y svc (hlists items hitems r hr).live) allowed
  refine before_tends (P := fun _ => True) hread (fun _ _ _ _ => trivial) fun s _ => ?_
  refine before_tends (P := fun _ => True) (within_sweepUnseen y svc s.seen)
    (fun _ _ _ _ => trivial) fun lost _ => ?_
  exact Within.seq (P := fun _ => True) (tends_recordVisit y svc _) (fun _ _ _ _ => trivial)
    (fun _ _ => within_ofExcept (R := Orderly) _) (fun _ _ h => h) fun _ _ _ => Tends.after

theorem asks_unopened {R : World → World → Prop} [hR : Asks R] (y : Syncer) (svc : Service) :
    Within R (y.unopened svc) := by
  have hend : Within R (y.itemsOf svc >>= fun _ => (Effect.breakOff .channelTooWide : Pass Unit)) :=
    Within.bind (asks_itemsOf y svc) fun _ => hR.refl
  unfold unopened
  split
  · exact Within.bind (asks_allowsPrivate y svc) fun _ => hend
  · exact Within.bind (asks_counterFor y svc) fun counter =>
      Within.bind (asks_knownFor y counter) fun _ => hend

/-- A pass over a service that it does not find, or without a channel, does nothing. Otherwise it is
a streaming pass or a batch pass. -/
theorem visit_cases {w : World} (hs : w.store.catalog.Furnished) (y : Syncer) (id : Int)
    (least : Duration) : SameStore w (y.perform (.visit id least) w).2 ∨
      ∃ svc v, SameStore w v ∧ w.store.catalog.Holds svc ∧ svc.id = id ∧
        (y.perform (.visit id least) w).2 =
          ((if y.isStreaming then y.stream svc least else y.batch svc least) v).2 := by
  have hstill :
      SameStore w (store "fetching external service" .getService (Store.getService id) w).2 :=
    still_store (Store.still_getService id) w
  unfold perform syncService
  simp only []
  rw [run_bind]
  cases hrun : store "fetching external service" .getService (Store.getService id) w with
  | mk r v =>
      rw [hrun] at hstill
      cases r with
      | error e => exact .inl hstill
      | ok svc =>
          obtain ⟨hsvc, hid, -⟩ := Store.getService_ok hs (store_ok hrun)
          simp only []
          split
          · exact .inl (Eq.trans (asks_unopened (R := SameStore) y svc v) hstill)
          · exact .inr ⟨svc, v, hstill, hsvc, hid, rfl⟩

theorem snd_perform_sync (y : Syncer) (svc : Service) (r : Repo) (w : World) :
    (y.perform (.sync svc r) w).2 = (y.sync svc r w).2 := by
  change ((y.sync svc r >>= fun _ => pure ()) w).2 = _
  rw [run_bind]
  cases y.sync svc r w with
  | mk result v => cases result <;> rfl

/-- A call for a single repository looks up its service, which changes nothing, and if it is found
the repository is brought up to date for it. -/
theorem syncRepo_cases (y : Syncer) (r : Repo) (w : World) :
    (∃ e v, cloudDefault r.spec.serviceType w = (.error e, v) ∧ SameStore w v ∧
      (y.perform (.syncRepo r) w).2 = v) ∨
    ∃ svc v, cloudDefault r.spec.serviceType w = (.ok svc, v) ∧ SameStore w v ∧
      (y.perform (.syncRepo r) w).2 = (y.sync svc r v).2 := by
  have hstill : Within SameStore (cloudDefault r.spec.serviceType) := asks_cloudDefault _
  cases hend : y.perform (.syncRepo r) w with
  | mk result u =>
      unfold perform syncRepo at hend
      simp only [] at hend
      rw [bind_assoc] at hend
      rcases bind_cases hend with ⟨e, hrun, -⟩ | ⟨svc, v, hrun, hsync⟩
      · exact .inl ⟨e, u, hrun, hstill.of_run hrun, rfl⟩
      · refine .inr ⟨svc, v, hrun, hstill.of_run hrun, ?_⟩
        rw [← snd_perform_sync]
        exact congrArg Prod.snd hsync.symm

theorem tidy_visit {id : Int} {w : World} (hw : w.store.catalog.Tidy)
    (hbrings : y.Brings Repo.ListedBy w (.visit id least)) :
    (y.perform (.visit id least) w).2.store.catalog.Tidy := by
  rcases visit_cases hw.furnished y id least with hsame | ⟨svc, v, hsame, hsvc, hid, hend⟩
  · rw [hsame]
    exact hw
  · have hlists := hbrings svc hsvc hid
    rw [hend]
    rw [← hsame] at hw hsvc
    split
    · exact (tends_stream hlists v).tidy hw hsvc
    · exact (tends_batch hlists v).tidy hw hsvc

theorem tidy_perform {task : Task} {w : World} (hw : w.store.catalog.Tidy)
    (hbrings : y.Brings Repo.ListedBy w task) : (y.perform task w).2.store.catalog.Tidy := by
  cases task with
  | visit service least => exact tidy_visit hw hbrings
  | sync svc repo =>
      rw [snd_perform_sync]
      exact ((within_sync y svc hbrings.live w).tidy hw).1
  | syncRepo repo =>
      rcases syncRepo_cases y repo w with ⟨e, v, -, hsame, hend⟩ | ⟨svc, v, hrun, hsame, hend⟩
      · rw [hend, hsame]
        exact hw
      · rw [hend]
        rw [← hsame] at hw
        exact ((within_sync y svc (hbrings svc v hrun).live v).tidy hw).1

end Syncer

namespace Catalog

theorem Reachable.tidy {c : Catalog} (h : Reachable Repo.ListedBy c) : c.Tidy := by
  induction h with
  | start hrepos hmembers hc =>
      refine ⟨⟨hc, ?_, ?_⟩, ?_⟩
      · rw [hrepos]
        exact Int.le_refl 0
      · intro j row hrow
        rw [hrepos, Table.get?_empty] at hrow
        cases hrow
      · intro j row hrow
        rw [hrepos, Table.get?_empty] at hrow
        cases hrow
  | elsewhere _ hrepos hmembers hd ih =>
      refine ⟨⟨hd, ?_, ?_⟩, ?_⟩
      · rw [hrepos]
        exact ih.lastId
      · rw [hrepos]
        exact ih.ids
      · rw [hrepos, hmembers]
        exact ih.claimed
  | pass y task _ hbrings ih => exact Syncer.tidy_perform ih hbrings

end Catalog

namespace Catalog

theorem furnished_of_rows {c : Catalog} (htables : c.Complete)
    (hrows : ∀ e ∈ c.services.toList,
      (Kind.ofName? e.2.kindName).isSome = true ∧ 0 < e.1 ∧ Urn.InRange e.1) : c.Furnished :=
  ⟨htables, fun _ _ hrow => (hrows _ (Table.get?_eq_some_iff.mp hrow)).1,
    fun _ _ hrow => (hrows _ (Table.get?_eq_some_iff.mp hrow)).2⟩

theorem Holds.synced {svc : Service} {w : World} (h : w.store.catalog.Holds svc)
    (hc : w.store.catalog.Tidy) (y : Syncer) (other : Service) {r : Repo}
    (hlive : r.deletedAt = none) : (y.perform (.sync other r) w).2.store.catalog.Holds svc := by
  have hsync : Within Effect.Orderly (y.perform (.sync other r)) :=
    Within.bind (Syncer.within_sync y other hlive) fun _ => Within.pure ()
  exact h.of_sameSetting ((hsync w).tidy hc).2

end Catalog

namespace Sample

/-- A code host as it is stored first. -/
def hub : Service :=
  { Service.fresh .gitHub "hub" with id := 1, createdAt := some ⟨0⟩, updatedAt := some ⟨0⟩ }

/-- A store that holds the host and nothing else. -/
def base : World :=
  ⟨(Store.putService (.fresh .gitHub "hub") (.fresh ⟨0⟩)).2, [], false, []⟩

/-- A repository as the host lists it. -/
def entry (id name : String) : Repo :=
  { Repo.blank with name, spec := ⟨"github", "hub", id⟩, claims := .solo hub.urn name }

/-- Whoever makes a batch pass over what the host lists. -/
def syncer (items : List Item) : Syncer :=
  ⟨⟨10, 10, .all, false, false, false, false, 1, 1, 1⟩, false, .nobody, ⟨0⟩, fun _ => .ok items⟩

theorem entry_listedBy (id name : String) : (entry id name).ListedBy hub :=
  ⟨rfl, rfl, name, rfl⟩

theorem furnished_base : base.store.catalog.Furnished := by
  refine Catalog.furnished_of_rows (fun t => by cases t <;> rfl) ?_
  unfold Urn.InRange
  decide

theorem holds_base : base.store.catalog.Holds hub :=
  ⟨(base.store.catalog.services.get? 1).get rfl, rfl, rfl⟩

/-- A second service, which lists copies of the repositories of the host. -/
def mirror : Service :=
  { Service.fresh .gitLab "mirror" with id := 2, createdAt := some ⟨0⟩, updatedAt := some ⟨0⟩ }

def mirrored : World :=
  { base with store := (Store.putService (.fresh .gitLab "mirror") base.store).2 }

def copy (id name : String) : Repo :=
  { entry id name with claims := .solo mirror.urn name }

theorem furnished_mirrored : mirrored.store.catalog.Furnished := by
  refine Catalog.furnished_of_rows (fun t => by cases t <;> rfl) ?_
  unfold Urn.InRange
  decide

theorem holds_mirrored : mirrored.store.catalog.Holds hub :=
  ⟨(mirrored.store.catalog.services.get? 1).get rfl, rfl, rfl⟩

theorem brings_listed (host : Service) {listed : List Repo} {w : World}
    (hkind : w.store.catalog.kindOf? host.id = some host.kind)
    (hlisted : ∀ r ∈ listed, r.ListedBy host) :
    (syncer (listed.map .ok)).Brings Repo.ListedBy w (.visit host.id ⟨0⟩) := by
  rintro svc hsvc hid _ ⟨⟩ r hr
  obtain ⟨x, hx, hsame⟩ := List.mem_map.mp hr
  cases hsame
  refine (hlisted r hx).of_urn ?_
  rw [← hid, hsvc.kindOf?] at hkind
  unfold Service.urn
  rw [Option.some.inj hkind, hid]

theorem brings_one (host : Service) {r : Repo} {w : World}
    (hkind : w.store.catalog.kindOf? host.id = some host.kind) (hlisted : r.ListedBy host) :
    (syncer [.ok r]).Brings Repo.ListedBy w (.visit host.id ⟨0⟩) := by
  have hall : ∀ x ∈ [r], x.ListedBy host := List.forall_mem_singleton.mpr hlisted
  exact brings_listed host hkind hall

/-- The second service has brought up two copies already. -/
def stocked : World :=
  ((syncer []).perform (.sync mirror (copy "3" "beta"))
    ((syncer []).perform (.sync mirror (copy "9" "alpha")) mirrored).2).2

theorem reachable_stocked : Catalog.Reachable Repo.ListedBy stocked.store.catalog :=
  .pass _ _ (.pass _ _ (.start rfl rfl furnished_mirrored) ⟨rfl, rfl, "alpha", rfl⟩)
    ⟨rfl, rfl, "beta", rfl⟩

/-- The host lists an identity under two names, of which the first is that of another identity too,
and the name of a copy with a smaller identity. -/
def crowded : List Repo :=
  [entry "5" "Alpha", entry "8" "Beta", entry "5" "Omega", entry "7" "alpha"]

theorem crowded_listedBy : ∀ r ∈ crowded, r.ListedBy hub := by
  simp only [crowded, List.forall_mem_cons]
  exact ⟨entry_listedBy _ _, entry_listedBy _ _, entry_listedBy _ _, entry_listedBy _ _,
    List.forall_mem_nil _⟩

end Sample

namespace Catalog

/-- Live means claimed: whatever passes were made, a row is live if and only if some service holds
it. -/
theorem isLive_iff_held {c : Catalog} (h : Reachable Repo.ListedBy c) {j : Int} {row : RepoRow}
    (hrow : c.repos.get? j = some row) :
    row.isLive = true ↔ ∃ s m, c.members.get? ⟨j, s⟩ = some m :=
  h.tidy.claimed j row hrow

/-- A repository of the host takes its name from a copy, and then the host lists more. -/
theorem isLive_iff_held_first :
    let v := ((Sample.syncer [.ok (Sample.entry "5" "Alpha")]).perform (.visit 1 ⟨0⟩)
      Sample.stocked).2
    let w := ((Sample.syncer (Sample.crowded.map .ok)).perform (.visit 1 ⟨0⟩) v).2
    v.store.catalog.repos.toList.map (fun e => (e.2.name, e.2.isLive)) =
        [("alpha", false), ("beta", true), ("Alpha", true)] ∧
      ∀ c ∈ [v.store.catalog, w.store.catalog], Reachable Repo.ListedBy c ∧
        ∀ j row, c.repos.get? j = some row →
          (row.isLive = true ↔ ∃ s m, c.members.get? ⟨j, s⟩ = some m) := by
  intro v w
  have hv : Reachable Repo.ListedBy v.store.catalog := by
    refine .pass _ _ Sample.reachable_stocked (Sample.brings_one Sample.hub ?_ ?_)
    · decide
    · exact Sample.entry_listedBy "5" "Alpha"
  have hw : Reachable Repo.ListedBy w.store.catalog := by
    refine .pass _ _ hv (Sample.brings_listed Sample.hub ?_ Sample.crowded_listedBy)
    decide +kernel
  refine ⟨by decide +kernel, fun c hc => ?_⟩
  have hreach : Reachable Repo.ListedBy c := by
    rcases List.mem_pair.mp hc with rfl | rfl
    · exact hv
    · exact hw
  exact ⟨hreach, fun j row hrow => isLive_iff_held hreach hrow⟩

end Catalog

end RepoCatalog
