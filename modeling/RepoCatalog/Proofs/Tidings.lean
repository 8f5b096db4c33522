import RepoCatalog.Proofs.Revoked
import RepoCatalog.Proofs.Truth

/-!
# What the audience is told

All that passes of a service do to rows and memberships they do in a few ways: they bring up a
single repository, insert a new one early, write a batch, or sweep. Each is one transaction, after
which at most one difference is published, and nothing is written in between. Whoever listens to a
pass therefore hears nothing but the truth, each time about the catalog as it has just been left.
-/
namespace RepoCatalog

open Step
open Time (Duration)

namespace Syncer

open Effect Catalog

/-- What a batch pass does once it has read its listing: it writes its batch and tells of it. -/
def applied (y : Syncer) (svc : Service) (sourced : List Repo) (least : Duration) : Pass Unit := do
  let diff ← transaction .ofStore (y.applyBatch svc sourced least)
  y.publish diff

/-- What passes of a service do to rows and memberships: a transaction, and then what is told of it.
In the middle stands what is found as soon as the transaction is over. -/
inductive Deed (y : Syncer) (svc : Service) (w : World) : World → World → Prop where
  | sync {r : Repo} : r.ListedBy svc →
      Deed y svc w (transaction .ofStore (y.reconcile svc r) w).2 (y.sync svc r w).2
  | insert {r : Repo} : r.ListedBy svc →
      Deed y svc w (transaction .ofStore (y.reconcileNew svc r) w).2 (y.insertIfNew svc r w).2
  | batch {sourced : List Repo} (least : Duration) : (∀ r ∈ sourced, r.ListedBy svc) →
      Deed y svc w (transaction .ofStore (y.applyBatch svc sourced least) w).2
        (y.applied svc sourced least w).2
  | sweep (keep : List Int) :
      Deed y svc w (transaction (.store "sweeping unseen repos")
        (store "sweeping unseen repos" .sweep (Store.sweep svc keep)) w).2
        (y.sweepUnseen svc keep w).2

/-- Nothing is written, and at most one difference is published, which is true of the catalog. -/
structure Tells (w w' : World) : Prop where
  still : w'.store = w.store
  told : ∃ told : Option Diff, w'.published = w.published ++ told.toList ∧
    ∀ d, told = some d → d.TrueOf w.store.catalog

/-- Nothing is told before the transaction is over, and then nothing but the truth. -/
structure Honest (w v w' : World) : Prop where
  silent : Silent w v
  tells : Tells v w'

/-- A pass as its audience hears of it, link by link: rows and memberships only change by deeds,
of which nothing but the truth is told, and nobody hears of anything else. -/
inductive Chronicle (y : Syncer) (svc : Service) : World → World → Prop where
  | idle {w w' : World} : w'.published = w.published →
      w'.store.catalog.repos = w.store.catalog.repos →
      w'.store.catalog.members = w.store.catalog.members → Chronicle y svc w w'
  | deed {w v w' : World} : Deed y svc w v w' → Honest w v w' → Chronicle y svc w w'
  | trans {u v w : World} : Chronicle y svc u v → Chronicle y svc v w → Chronicle y svc u w

variable {y : Syncer} {svc : Service} {sourced : List Repo} {least : Duration} {w v w' : World}

/-- Whatever is heard of in a pass is true of the catalog that a deed has just left. -/
theorem Chronicle.told (h : Chronicle y svc w w') {d : Diff} (hd : d ∈ w'.published) :
    d ∈ w.published ∨ ∃ u v u', Deed y svc u v u' ∧ u'.published = u.published ++ [d] ∧
      d.TrueOf v.store.catalog := by
  induction h with
  | idle hpublished _ _ => exact .inl (hpublished ▸ hd)
  | @deed w v w' hdeed hhonest =>
      obtain ⟨hsilent, _, told, hpublished, htrue⟩ := hhonest
      rw [show v.published = w.published from hsilent] at hpublished
      rw [hpublished, List.mem_append, Option.mem_toList] at hd
      rcases hd with hd | rfl
      · exact .inl hd
      · exact .inr ⟨w, v, w', hdeed, hpublished, htrue d rfl⟩
  | trans _ _ ih ih' =>
      rcases ih' hd with hd | hsaid
      · exact ih hd
      · exact .inr hsaid

theorem Chronicle.of_untouched (h : Untouched w w') : Chronicle y svc w w' :=
  .idle h.published (congrArg (·.repos) h.catalog) (congrArg (·.members) h.catalog)

theorem Tells.of_silent (hstill : SameStore w w') (h : Silent w w') : Tells w w' :=
  ⟨hstill, none, by rw [Option.toList_none, List.append_nil]; exact h, fun d hd => (by cases hd)⟩

theorem Tells.after (hstill : SameStore w v) (h : Silent w v) (h' : Tells v w') : Tells w w' := by
  obtain ⟨hstill', told, hpublished, htrue⟩ := h'
  refine ⟨hstill'.trans hstill, told, hpublished.trans (congrArg (· ++ told.toList) h), ?_⟩
  rw [← show v.store = w.store from hstill]
  exact htrue

theorem tells_publish {d : Diff} (htrue : d.TrueOf w.store.catalog) :
    Tells w (y.publish d w).2 := by
  unfold publish
  split
  · refine ⟨rfl, some d, rfl, fun e he => ?_⟩
    cases he
    exact htrue
  · exact .of_silent rfl rfl

theorem tells_publishSome {d : Diff} (htrue : d.TrueOf w.store.catalog) :
    Tells w (y.publishSome d w).2 := by
  unfold publishSome
  split
  · exact .of_silent rfl rfl
  · exact tells_publish htrue

/-- It is enough that the truth is told of whatever the body of a transaction can leave. -/
theorem honest_transaction {α β : Type} {lift : StoreError → SyncError} {body : Pass α}
    {tell : α → Pass β} (hsaved : Within SameSaved body) (hsilent : Within Silent body)
    (htell : ∀ a u u' v, u.store.catalog = w.store.catalog → body u = (.ok a, u') →
      v.store.catalog = u'.store.catalog → Tells v (tell a v).2) :
    Honest w (transaction lift body w).2 ((transaction lift body >>= tell) w).2 := by
  rw [run_bind]
  cases hrun : transaction lift body w with
  | mk outcome v =>
      refine ⟨(outward_transaction hsilent).of_run hrun, ?_⟩
      cases outcome with
      | error e => exact .of_silent rfl rfl
      | ok a =>
          obtain ⟨u, u', hu, hbody, hcatalog⟩ := transaction_ok hsaved hrun
          have hopened : u.store.catalog = w.store.catalog := catalog_of_opened hu
          exact htell a u u' v hopened hbody hcatalog

theorem honest_sync (hw : w.store.catalog.Tidy) (hsvc : w.store.catalog.Holds svc) {r : Repo}
    (hr : r.ListedBy svc) :
    Honest w (transaction .ofStore (y.reconcile svc r) w).2 (y.sync svc r w).2 := by
  refine honest_transaction (saved_reconcile y svc r)
    (admits_reconcile (p := fun _ => True) y svc trivial) fun d u u' v hu hrun hv => ?_
  rw [← hu] at hw hsvc
  obtain ⟨v', hpublish⟩ := publishSome_total y d v
  have htold := tells_publishSome (y := y) (hv ▸ reconcile_true hw hsvc hr hrun)
  rw [hpublish] at htold
  rw [bind_of_ok hpublish]
  exact htold

theorem honest_insertIfNew (hw : w.store.catalog.Tidy) (hsvc : w.store.catalog.Holds svc) {r : Repo}
    (hr : r.ListedBy svc) :
    Honest w (transaction .ofStore (y.reconcileNew svc r) w).2 (y.insertIfNew svc r w).2 := by
  refine honest_transaction (saved_reconcileNew y svc r)
    (admits_reconcileNew (p := fun _ => True) y svc trivial) fun d u u' v hu hrun hv => ?_
  rw [← hu] at hw hsvc
  exact tells_publishSome (hv ▸ reconcileNew_true hw hsvc hr hrun)

theorem honest_applied (hw : w.store.catalog.Tidy) (hsvc : w.store.catalog.Holds svc)
    (hlisted : ∀ r ∈ sourced, r.ListedBy svc) :
    Honest w (transaction .ofStore (y.applyBatch svc sourced least) w).2
      (y.applied svc sourced least w).2 := by
  refine honest_transaction (saved_applyBatch y svc sourced least)
    (silent_applyBatch y svc sourced least) fun d u u' v hu hrun hv => ?_
  rw [← hu] at hw hsvc
  exact tells_publish (hv ▸ applyBatch_true hw hsvc hlisted hrun)

theorem tells_tellSwept (hw : w.store.catalog.Tidy) (swept : List Int) :
    Tells w (y.tellSwept swept w).2 := by
  unfold tellSwept
  split
  · exact .of_silent rfl rfl
  · let query := { RepoQuery.all with ids := swept, withDeleted := true }
    rw [run_bind]
    cases hlist : store "listing swept repos" .listRepos (Store.listRepos query) w with
    | mk outcome v =>
        have hstill : SameStore w v := (still_store (Store.still_listRepos query)).of_run hlist
        have hquiet : Silent w v := (outward_store (R := Silent) _ _ _).of_run hlist
        refine .after hstill hquiet ?_
        cases outcome with
        | error e => exact .of_silent rfl rfl
        | ok found =>
            have hread := store_ok hlist
            rw [Store.run_listRepos hw.furnished] at hread
            obtain ⟨hfound, hstore⟩ := Prod.mk.inj hread
            cases hfound
            have htrue := selected_true hw query
            rw [hstore] at htrue ⊢
            obtain ⟨v', hpublish⟩ := publish_total y _ v
            have htold := tells_publish (y := y) htrue
            rw [hpublish] at htold
            simp only [bind_of_ok hpublish]
            exact htold

theorem honest_sweepUnseen (hw : w.store.catalog.Tidy) (keep : List Int) :
    Honest w (transaction (.store "sweeping unseen repos")
      (store "sweeping unseen repos" .sweep (Store.sweep svc keep)) w).2
      (y.sweepUnseen svc keep w).2 := by
  refine honest_transaction (on_store (Store.within_sweep svc keep)) (outward_store _ _ _)
    fun ids u u' v hu hrun hv => tells_tellSwept ?_ ids
  rw [← hu] at hw
  rw [hv]
  exact hw.swept (Store.sweep_ok hw.furnished (store_ok hrun))

/-- Nothing but the truth is told of a deed, right after its transaction. -/
theorem Deed.honest (h : Deed y svc w v w') (hw : w.store.catalog.Tidy)
    (hsvc : w.store.catalog.Holds svc) : Honest w v w' := by
  cases h with
  | sync hr => exact honest_sync hw hsvc hr
  | insert hr => exact honest_insertIfNew hw hsvc hr
  | batch least hlisted => exact honest_applied hw hsvc hlisted
  | sweep keep => exact honest_sweepUnseen hw keep

/-- From a tidy catalog that holds the service, all is a chronicle. -/
def Recounts (y : Syncer) (svc : Service) (w w' : World) : Prop :=
  w.store.catalog.Tidy → w.store.catalog.Holds svc → Chronicle y svc w w'

/-- A part of a pass after which the pass goes on. -/
structure Ongoing (y : Syncer) (svc : Service) (w w' : World) : Prop where
  orderly : Orderly w w'
  recounts : Recounts y svc w w'

theorem Ongoing.before (h : Ongoing y svc w v) (h' : Recounts y svc v w') :
    Recounts y svc w w' := by
  intro hw hsvc
  obtain ⟨hv, hsetting⟩ := h.orderly.tidy hw
  exact (h.recounts hw hsvc).trans (h' hv (hsvc.of_sameSetting hsetting))

instance : Chained (Ongoing y svc) where
  refl w := ⟨Chained.refl w, fun _ _ => .idle rfl rfl rfl⟩
  trans h h' := ⟨Chained.trans h.orderly h'.orderly, h.before h'.recounts⟩

instance : Asks (Ongoing y svc) where
  ask context operation _ h := fun w =>
    ⟨within_still (still_store h) w,
      fun _ _ => .of_untouched (Asks.ask (R := Untouched) context operation h w)⟩

theorem Ongoing.of_deed {α : Type} {x : Pass α} (horderly : Within Orderly x)
    (hdeed : ∀ w, ∃ v, Deed y svc w v (x w).2) : Within (Ongoing y svc) x := by
  refine fun w => ⟨horderly w, fun hw hsvc => ?_⟩
  obtain ⟨v, h⟩ := hdeed w
  exact .deed h (h.honest hw hsvc)

theorem before_recounts {α β : Type} {P : α → Prop} {x : Pass α} {f : α → Pass β}
    (hx : Within (Ongoing y svc) x) (hP : ∀ w a v, x w = (.ok a, v) → P a)
    (hf : ∀ a, P a → Within (Recounts y svc) (f a)) : Within (Recounts y svc) (x >>= f) :=
  Within.seq hx hP hf (fun _ _ h => h.recounts) fun _ _ _ => Ongoing.before

theorem batch_applied (y : Syncer) (svc : Service) (least : Duration) : y.batch svc least = (do
    let listing ← y.reading svc
    let (sourced, failure) ← Effect.ofExcept (judge svc listing)
    let visible := if ← y.allowsPrivate svc then sourced else sourced.filter fun r => !r.isPrivate
    y.applied svc visible least
    match failure with
    | some failure => Effect.fail failure
    | none => pure ()) := by
  rw [batch_eq]
  refine bind_congr fun listing => bind_congr fun judged => bind_congr fun allowed => ?_
  exact (bind_assoc _ _ _).symm

theorem batch_recounts (hlists : ∀ items, y.sourceOf svc = .ok items →
    ∀ r, .ok r ∈ items → r.ListedBy svc) : Within (Recounts y svc) (y.batch svc least) := by
  rw [batch_applied]
  have hread : Within (Ongoing y svc) (y.reading svc) := asks_reading fun items hitems r hr =>
    .of_deed (within_insertIfNew y svc r) fun _ =>
      ⟨_, .insert (hlists items hitems r hr)⟩
  refine before_recounts hread (fun _ _ _ h => reading_ok h) ?_
  rintro listing ⟨items, hitems, rfl⟩
  refine before_recounts (P := fun r => judge svc (.ofItems items) = .ok r) (within_ofExcept _)
    (fun _ _ _ h => (ofExcept_ok h).1) ?_
  rintro ⟨sourced, failure⟩ hjudged
  have hsourced : ∀ r ∈ sourced, r.ListedBy svc :=
    fun r hr => hlists items hitems r (ok_of_judge hjudged r hr)
  refine before_recounts (P := fun _ => True) (asks_allowsPrivate y svc)
    (fun _ _ _ _ => trivial) fun allowed _ => ?_
  have happlied : ∀ visible, (∀ r ∈ visible, r.ListedBy svc) →
      Within (Recounts y svc) (y.applied svc visible least) := fun visible hvisible w hw hsvc =>
    .deed (.batch least hvisible) (honest_applied hw hsvc hvisible)
  refine Within.seq (S := Untouched) (P := fun _ => True) (happlied _ ?_)
    (fun _ _ _ _ => trivial) (fun _ _ => ?_) (fun _ _ h => h)
    fun _ _ _ h h' hw hsvc => (h hw hsvc).trans (.of_untouched h')
  · intro r hr
    exact hsourced r (mem_of_allowed hr)
  · split
    · exact Within.throw _
    · exact Within.pure _

theorem recordVisit_recounts (y : Syncer) {svc : Service} (errors : List SyncError)
    (interval : Duration) : Within (Recounts y svc) (do
      y.recordVisit svc interval
      Effect.ofExcept (SyncError.bundle errors)) := by
  have hvisit : Within (Recounts y svc) (y.recordVisit svc interval) := by
    intro w hw hsvc
    have hid : svc.id ≠ 0 := Int.ne_of_gt (hsvc.range hw.furnished).1
    have hquiet : Within Silent (y.recordVisit svc interval) :=
      within_recordVisit y svc interval fun _ _ => outward_store _ _ _
    have hvisited := visited_recordVisit y hid interval w hw.furnished hw.furnished
    exact .idle (hquiet w) hvisited.repos hvisited.members
  have hend : ∀ u : Unit, Within Untouched
      (Effect.ofExcept (SyncError.bundle errors) : Pass Unit) := fun _ => within_ofExcept _
  exact Within.seq (R := Recounts y svc) (S := Untouched) (P := fun _ => True) hvisit
    (fun _ _ _ _ => trivial) (fun u _ => hend u) (fun _ _ h => h)
    fun _ _ _ h h' hw hsvc => (h hw hsvc).trans (.of_untouched h')

theorem stream_recounts (hlists : ∀ items, y.sourceOf svc = .ok items →
    ∀ r, .ok r ∈ items → r.ListedBy svc) : Within (Recounts y svc) (y.stream svc least) := by
  unfold stream
  refine before_recounts (P := fun _ => True) (asks_allowsPrivate y svc)
    (fun _ _ _ _ => trivial) fun allowed _ => ?_
  refine before_recounts (asks_itemsOf y svc) (fun _ _ _ h => (itemsOf_ok h).1)
    fun items hitems => ?_
  have hread : Within (Ongoing y svc) (y.readStream svc allowed items) :=
    within_readStream (fun r hr => .of_deed (within_sync y svc (hlists items hitems r hr).live)
      fun _ => ⟨_, .sync (hlists items hitems r hr)⟩) allowed
  refine before_recounts (P := fun _ => True) hread (fun _ _ _ _ => trivial) fun s _ => ?_
  exact before_recounts (P := fun _ => True)
    (.of_deed (within_sweepUnseen y svc s.seen) fun _ => ⟨_, .sweep s.seen⟩)
    (fun _ _ _ _ => trivial) fun lost _ => recordVisit_recounts y s.errors _

end Syncer

namespace Sample

/-- Whoever inserts early, and makes passes over these items before an audience. -/
def announcer (items : List Item) : Syncer :=
  { syncer items with
    audience := .listening, settings := { (syncer items).settings with streamingInsert := true } }

/-- The ids of all that was told of as added or modified, and of all that was told of as deleted and
whether anybody still holds it. -/
def heard (w : World) : List (List Int × List (Int × Bool)) :=
  w.published.map fun d =>
    ((d.added ++ d.modified).map (·.id), d.deleted.map fun r => (r.id, !r.claims.isEmpty))

end Sample

namespace Catalog

open Effect Syncer

/-- Whatever a pass over listed repositories publishes is true of the catalog, right after the
transaction that it is told of; and nothing changes rows or memberships in between. -/
theorem published_diffs_true {y : Syncer} {svc : Service} {least : Duration} {w : World}
    (hreach : Reachable Repo.ListedBy w.store.catalog) (hsvc : w.store.catalog.Holds svc)
    (hlists : ∀ items, y.sourceOf svc = .ok items → ∀ r, .ok r ∈ items → r.ListedBy svc) :
    (∀ v w', Deed y svc w v w' → Honest w v w') ∧
    ∀ w', w' = (y.batch svc least w).2 ∨ w' = (y.stream svc least w).2 →
      Chronicle y svc w w' ∧ ∀ d ∈ w'.published, d ∈ w.published ∨
        ∃ u v u', Deed y svc u v u' ∧ u'.published = u.published ++ [d] ∧
          d.TrueOf v.store.catalog := by
  refine ⟨fun v w' h => h.honest hreach.tidy hsvc, fun w' hw' => ?_⟩
  have hpass : Chronicle y svc w w' := by
    rcases hw' with rfl | rfl
    · exact batch_recounts hlists w hreach.tidy hsvc
    · exact stream_recounts hlists w hreach.tidy hsvc
  exact ⟨hpass, fun d hd => hpass.told hd⟩

/-- Of two repositories that the host no longer lists, its mirror keeps one. -/
theorem published_diffs_true_shared :
    let y := Sample.announcer [.ok (Sample.entry "3" "gamma")]
    let renamed := (y.sync Sample.hub (Sample.entry "2" "delta") Sample.shared).2
    let batched := (y.batch Sample.hub ⟨0⟩ Sample.shared).2
    let streamed := (y.stream Sample.hub ⟨0⟩ Sample.shared).2
    (∃ v, Honest Sample.shared v renamed ∧ Sample.heard renamed = [([2], [])]) ∧
      (Chronicle y Sample.hub Sample.shared batched ∧ batched.published.length = 2) ∧
      Chronicle y Sample.hub Sample.shared streamed ∧
        Sample.heard streamed = [([3], []), ([], [(1, true), (2, false)])] := by
  intro y renamed batched streamed
  obtain ⟨hreach, hsvc⟩ := Sample.shared_reached
  have hlists : ∀ items, y.sourceOf Sample.hub = .ok items →
      ∀ r, .ok r ∈ items → r.ListedBy Sample.hub := by
    rintro items ⟨⟩ r hr
    obtain rfl : r = Sample.entry "3" "gamma" := by simpa using hr
    exact Sample.entry_listedBy "3" "gamma"
  obtain ⟨hdeeds, hpasses⟩ := published_diffs_true hreach hsvc hlists
  exact ⟨⟨_, hdeeds _ _ (.sync (Sample.entry_listedBy "2" "delta")), by decide +kernel⟩,
    ⟨(hpasses batched (.inl rfl)).1, by decide +kernel⟩,
    (hpasses streamed (.inr rfl)).1, by decide +kernel⟩

end Catalog

end RepoCatalog
