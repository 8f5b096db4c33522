import RepoCatalog.Proofs.Calm
import RepoCatalog.Proofs.Privacy

/-!
# How much a user's service may list

The repositories that a user's service lists are counted one by one as they arrive, whatever becomes
of them later, and the first one past the limit stops the reading before anything is written. No
other step of a batch pass says that a user is past the limit.

After a batch the service holds nothing but what it lists, and of each listed identity it holds one
row at most. So it never holds more than the limit, though nothing is counted when rows are written.
-/
namespace RepoCatalog

open Step
open Time (Duration)

namespace Syncer

open Effect Catalog

variable {y : Syncer} {svc : Service} {items : List Item} {least : Duration} {w w' v : World}
  {counter : Counter} {result : Except (Abort SyncError) Unit}

/-- How a pass ends that has listed one repository more than the limit allows. -/
def pastLimit (limit : Nat) : Abort SyncError :=
  .failed (.quota (.userLimitExceeded limit))

theorem listingHook_counts (y : Syncer) (svc : Service) (w : World)
    (hroom : counter.count < counter.limit) (repo : Repo) :
    y.listingHook svc repo ⟨w, some counter, none⟩ =
      (.ok (), ⟨w, some ⟨counter.count + 1, counter.limit⟩, none⟩) := by
  have hcount : countListed ⟨w, some counter, none⟩ =
      (.ok (), ⟨w, some ⟨counter.count + 1, counter.limit⟩, none⟩) := by
    simp only [countListed, Counter.increment, if_pos hroom]
  unfold listingHook
  rw [bind_of_ok hcount]
  rfl

theorem listingHook_refuses (y : Syncer) (svc : Service) (w : World)
    (hfull : ¬counter.count < counter.limit) (repo : Repo) :
    y.listingHook svc repo ⟨w, some counter, none⟩ =
      (.error (pastLimit counter.limit), ⟨w, some counter, none⟩) := by
  have hcount : countListed ⟨w, some counter, none⟩ =
      (.error (pastLimit counter.limit), ⟨w, some counter, none⟩) := by
    simp only [countListed, Counter.increment, if_neg hfull]
    rfl
  unfold listingHook
  rw [bind_of_error hcount]

/-- Reading the items to the end fails as soon as one repository more arrives than the counter
allows, and only then. -/
theorem readAll_counts (y : Syncer) (svc : Service) (items : List Item)
    (hgoing : w.isCancelled = false) (hcount : counter.count ≤ counter.limit)
    (p : Listing.Progress Reading (Abort SyncError)) (hstate : p.state = ⟨w, some counter, none⟩)
    (hnone : p.failure = none) :
    let q := (Listing.collector (y.listingHook svc) fun r => r.world.isCancelled).readAll p items
    q.2 ≠ .cancelled ∧ q.1.state.world = w ∧ q.1.failure =
      if counter.limit < counter.count + (Listing.ofItems items).repos.length then
        some (pastLimit counter.limit) else none := by
  induction items generalizing p counter with
  | nil =>
      have hworld : p.state.world = w := by rw [hstate]
      simp [Reader.readAll, Listing.collector, Listing.ofItems, hworld, hgoing, hcount, hnone]
  | cons item items ih =>
      have hgoes : ¬(Listing.collector (y.listingHook svc) fun r => r.world.isCancelled).isCancelled
          p = true := by
        simp [Listing.collector, hstate, hgoing]
      rw [Reader.readAll_cons hgoes]
      cases item with
      | error e =>
          rw [Listing.receive_failure, if_pos rfl]
          exact ih hcount _ hstate hnone
      | ok repo =>
          have hlength : (Listing.ofItems (.ok repo :: items)).repos.length =
              (Listing.ofItems items).repos.length + 1 := rfl
          rw [hlength]
          by_cases hroom : counter.count < counter.limit
          · have htaken := listingHook_counts y svc w hroom repo
            rw [← hstate] at htaken
            rw [Listing.receive_of_taken htaken, if_pos rfl]
            have hcount' : (⟨counter.count + 1, counter.limit⟩ : Counter).count ≤
                (⟨counter.count + 1, counter.limit⟩ : Counter).limit := hroom
            have hrest := ih hcount'
              ⟨_, ⟨p.listing.repos ++ [repo], p.listing.errors⟩, p.failure⟩ rfl hnone
            rw [Nat.add_right_comm, ← Nat.add_assoc] at *
            exact hrest
          · have hrefused := listingHook_refuses y svc w hroom repo
            rw [← hstate] at hrefused
            rw [Listing.receive_of_refused hrefused, if_neg Bool.false_ne_true]
            refine ⟨Ending.noConfusion, by rw [hstate], ?_⟩
            rw [if_pos (by omega)]

theorem run_reading_counted (howner : svc.owner?.isSome = true) {admitted : Option Counter}
    (hroom : y.counterFor svc w = (.ok admitted, v)) (hgoing : v.isCancelled = false)
    (hsource : y.sourceOf svc = .ok items) : y.reading svc w =
      (if y.quota.perUser < (Listing.ofItems items).repos.length then
        .error (pastLimit y.quota.perUser) else .ok (.ofItems items), v) := by
  cases counterFor_ok howner hroom
  have hknown : y.knownFor (some (.upTo y.quota.perUser)) v = (.ok none, v) := rfl
  have hcount : (Counter.upTo y.quota.perUser).count ≤ (Counter.upTo y.quota.perUser).limit :=
    Nat.zero_le _
  obtain ⟨hending, hworld, hfailure⟩ := readAll_counts y svc items hgoing hcount
    ⟨⟨v, some (.upTo y.quota.perUser), none⟩, .empty, none⟩ rfl rfl
  rw [show (Counter.upTo y.quota.perUser).count = 0 from rfl, Nat.zero_add,
    show (Counter.upTo y.quota.perUser).limit = y.quota.perUser from rfl] at hfailure
  unfold reading
  rw [bind_of_ok hroom, bind_of_ok hknown, bind_of_ok (run_itemsOf hsource v)]
  unfold readListing
  by_cases hpast : y.quota.perUser < (Listing.ofItems items).repos.length
  · rw [if_pos hpast] at hfailure ⊢
    rw [Listing.collect_of_failure hending hfailure]
    exact congrArg (Prod.mk _) hworld
  · rw [if_neg hpast] at hfailure ⊢
    rw [Listing.collect_of_end hending hfailure]
    exact congrArg (Prod.mk _) hworld

theorem mundane_not_isQuota : Abort.Mundane fun e => ¬IsQuota e :=
  ⟨fun _ _ => id, id, fun _ => id⟩

theorem not_isQuota_of_isCredentialReport {e : SyncError} (h : e.isCredentialReport = true) :
    ¬IsQuota (.failed e) := by
  intro hquota
  cases e with
  | quota _ => cases h
  | _ => exact hquota

theorem not_isQuota_of_reading {listing : Listing} (hread : y.reading svc w = (.ok listing, v))
    {e : Abort SyncError} (h : y.batch svc least w = (.error e, w')) : ¬IsQuota e := by
  rw [batch_eq, bind_of_ok hread] at h
  have hjudge : Fails (fun e => ¬IsQuota e) (ofExcept (judge svc listing)) := by
    unfold judge
    split
    · exact .pure _
    · simp only []
      split
      · exact .pure _
      · exact .fail id
  have hreport : ∀ v judged v', ofExcept (judge svc listing) v = (.ok judged, v') →
      ∀ failure, judged.2 = some failure → ¬IsQuota (.failed failure) := by
    rintro v ⟨sourced, failure⟩ v' hjudged f rfl
    have hbare := hasCommitted_concluded (ofExcept_ok hjudged).1
    exact not_isQuota_of_isCredentialReport hbare
  refine hjudge.bindOf hreport (fun judged hjudged => ?_) v e w' h
  refine (fails_allowsPrivate y svc (mundane_not_isQuota.store _)).bind fun allowed => ?_
  refine (fails_applied mundane_not_isQuota y svc _ least).bind fun d => ?_
  refine (fails_publish y d).bind fun _ => ?_
  split
  · rename_i failure hfailure
    exact .fail (hjudged failure hfailure)
  · exact .pure ()

theorem length_heldBy_le {c : Catalog} {s : Int} {rs : List Repo}
    (h : ∀ r ∈ heldBy c s, ∃ x ∈ rs, r.spec = x.spec) : (heldBy c s).length ≤ rs.length := by
  have hapart : (heldBy c s).Nodup := (pairwise_seen c _).imp fun hlt heq => by
    rw [heq] at hlt
    exact Int.lt_irrefl _ hlt
  have hspecs : ((heldBy c s).map (·.spec)).Nodup := by
    refine hapart.map_on fun a ha b hb hsame => ?_
    exact (mem_heldBy.mp ha).1.eq_of_spec (mem_heldBy.mp hb).1 hsame
  have hsub : (heldBy c s).map (·.spec) ⊆ rs.map (·.spec) := by
    intro spec hspec
    obtain ⟨r, hr, rfl⟩ := List.mem_map.mp hspec
    obtain ⟨x, hx, hsame⟩ := h r hr
    exact List.mem_map.mpr ⟨x, hx, hsame.symm⟩
  calc (heldBy c s).length
      = ((heldBy c s).map (·.spec)).length := (List.length_map _).symm
    _ ≤ (rs.map (·.spec)).length := (hspecs.subperm hsub).length_le
    _ = rs.length := List.length_map _

/-- Once a batch pass of a user's service has committed, the service holds no more than it lists. -/
theorem heldBy_of_hasCommitted (hs : w.store.catalog.Complete)
    (hrows : ∀ j row, w.store.catalog.repos.get? j = some row → j ≠ 0)
    (hsvc : w.store.catalog.Holds svc) (hrange : Urn.InRange svc.id)
    (howner : svc.owner?.isSome = true) (hsource : y.sourceOf svc = .ok items)
    (hids : ∀ r, .ok r ∈ items → r.id = 0) (hrun : y.batch svc least w = (result, w'))
    (hdone : hasCommitted result = true) :
    (heldBy w'.store.catalog svc.id).length ≤ (Listing.ofItems items).repos.length := by
  have hread : Untouched w (y.reading svc w).2 := within_reading_quietly (.inr howner) w
  rcases batch_cases hrun with ⟨hfailed, -⟩ | ⟨-, d, hcommitted⟩
  · cases hfailed.symm.trans hdone
  obtain ⟨items', sourced, failure, allowed, u, u', hitems, hjudged, -, -, hu, happlied,
    hcatalog⟩ := (hcommitted.of_untouched hread).written
  cases hsource.symm.trans hitems
  rw [← hu] at hs hrows hsvc
  obtain ⟨c₁, c₂, c₃, c₄, ms, as, v, interval, hstripped, hdeleted, hmodified, hadded, hjoined, -,
    hvisit, -⟩ := applyBatch_inv hs happlied
  obtain ⟨hrepos, hmembers⟩ := recordVisit_keeps hvisit
  apply length_heldBy_le
  intro r hr
  obtain ⟨⟨row, hrow, hlive, hview⟩, hheld⟩ := mem_heldBy.mp hr
  obtain ⟨m, hm⟩ := Option.isSome_iff_exists.mp hheld
  rw [hcatalog, hrepos] at hrow
  rw [hcatalog, hmembers] at hm
  obtain ⟨x, hx, hspec, -⟩ := held_listed hstripped hdeleted hmodified hadded hjoined hrows hsvc
    hrange (fun x hx => hids x (ok_of_judge hjudged x (mem_of_allowed hx))) hm hrow hlive
  refine ⟨x, mem_of_judge hjudged x (mem_of_allowed hx), ?_⟩
  rw [hview]
  exact hspec

/-- Let in and not cancelled, a batch pass of a user's service refuses a repository if and only if
the service lists more of them than the limit allows, and then it has written nothing. Whenever it
commits, the service holds no more than that. Of the catalog it is only asked that its tables exist
and that no row has the id 0, by which passes know what is not stored. -/
theorem batch_past_limit_iff (hs : w.store.catalog.Complete)
    (hrows : ∀ j row, w.store.catalog.repos.get? j = some row → j ≠ 0)
    (hsvc : w.store.catalog.Holds svc) (hrange : Urn.InRange svc.id)
    (howner : svc.owner?.isSome = true) {admitted : Option Counter}
    (hroom : y.counterFor svc w = (.ok admitted, v)) (hgoing : v.isCancelled = false)
    (hsource : y.sourceOf svc = .ok items) (hids : ∀ r, .ok r ∈ items → r.id = 0)
    (hrun : y.batch svc least w = (result, w')) :
    ((∃ limit, result = .error (pastLimit limit)) ↔
        y.quota.perUser < (Listing.ofItems items).repos.length) ∧
      (y.quota.perUser < (Listing.ofItems items).repos.length →
        result = .error (pastLimit y.quota.perUser) ∧ w'.store = w.store) ∧
      (hasCommitted result = true →
        (heldBy w'.store.catalog svc.id).length ≤ y.quota.perUser) := by
  have hread := run_reading_counted howner hroom hgoing hsource
  have hstill : v.store = w.store := (asks_counterFor (R := SameStore) y svc).of_run hroom
  by_cases hpast : y.quota.perUser < (Listing.ofItems items).repos.length
  · rw [if_pos hpast] at hread
    rw [batch_eq, bind_of_error hread] at hrun
    cases hrun
    refine ⟨iff_of_true ⟨_, rfl⟩ hpast, fun _ => ⟨rfl, hstill⟩, fun hdone => ?_⟩
    cases hdone
  · rw [if_neg hpast] at hread
    refine ⟨iff_of_false ?_ hpast, fun hmore => absurd hmore hpast, fun hdone => ?_⟩
    · rintro ⟨limit, rfl⟩
      exact not_isQuota_of_reading hread hrun trivial
    · calc (heldBy w'.store.catalog svc.id).length
          ≤ (Listing.ofItems items).repos.length :=
            heldBy_of_hasCommitted hs hrows hsvc hrange howner hsource hids hrun hdone
        _ ≤ y.quota.perUser := Nat.not_lt.mp hpast

end Syncer

namespace Sample

/-- Whoever makes batch passes where each user may add one repository. -/
def frugal (items : List Item) : Syncer :=
  { strict items with isStreaming := false }

theorem frugal_admitted (items : List Item) : ∃ admitted v,
    (frugal items).counterFor ownStored owned = (.ok admitted, v) ∧ v.isCancelled = false := by
  have hsame : (frugal items).counterFor ownStored owned = (frugal []).counterFor ownStored owned :=
    rfl
  have hok : ((frugal []).counterFor ownStored owned).1.isOk = true ∧
      ((frugal []).counterFor ownStored owned).2.isCancelled = false := by decide +kernel
  rw [hsame]
  cases hroom : (frugal []).counterFor ownStored owned with
  | mk answer v =>
      rw [hroom] at hok
      cases answer with
      | error e => cases hok.1
      | ok admitted => exact ⟨admitted, v, rfl, hok.2⟩

end Sample

namespace Syncer

open Catalog

/-- Two entries are one too many, even of a single repository; if there is one, it is held. -/
theorem batch_past_limit_iff_twice :
    let entry := Sample.ownEntry "1" "alpha"
    (∃ w', (Sample.frugal [.ok entry, .ok entry]).batch Sample.ownStored ⟨0⟩ Sample.owned =
        (.error (pastLimit 1), w') ∧ w'.store = Sample.owned.store) ∧
      ∃ w', (Sample.frugal [.ok entry]).batch Sample.ownStored ⟨0⟩ Sample.owned = (.ok (), w') ∧
        (heldBy w'.store.catalog Sample.ownStored.id).length ≤ 1 := by
  intro entry
  have hrows : ∀ j row, Sample.owned.store.catalog.repos.get? j = some row → j ≠ 0 := by
    intro j row hrow
    cases hrow
  have hrange : Urn.InRange Sample.ownStored.id := by
    unfold Urn.InRange
    decide
  have hids : ∀ (items : List Item), (∀ item ∈ items, item = .ok entry) →
      ∀ r, .ok r ∈ items → r.id = 0 := by
    intro items hitems r hr
    cases hitems _ hr
    rfl
  constructor
  · obtain ⟨admitted, v, hroom, hgoing⟩ := Sample.frugal_admitted [.ok entry, .ok entry]
    cases hrun : (Sample.frugal [.ok entry, .ok entry]).batch Sample.ownStored ⟨0⟩ Sample.owned with
    | mk result w' =>
        obtain ⟨rfl, hstore⟩ := (batch_past_limit_iff Sample.furnished_owned.tables hrows
          Sample.holds_owned hrange rfl hroom hgoing rfl (hids _ (by simp)) hrun).2.1 (by decide)
        exact ⟨w', rfl, hstore⟩
  · obtain ⟨admitted, v, hroom, hgoing⟩ := Sample.frugal_admitted [.ok entry]
    have hok : ((Sample.frugal [.ok entry]).batch Sample.ownStored ⟨0⟩ Sample.owned).1.isOk =
        true := by decide +kernel
    cases hrun : (Sample.frugal [.ok entry]).batch Sample.ownStored ⟨0⟩ Sample.owned with
    | mk result w' =>
        rw [hrun] at hok
        cases result with
        | error e => cases hok
        | ok u =>
            refine ⟨w', rfl, ?_⟩
            exact (batch_past_limit_iff Sample.furnished_owned.tables hrows Sample.holds_owned
              hrange rfl hroom hgoing rfl (hids _ (by simp)) hrun).2.2 rfl

end Syncer

end RepoCatalog
