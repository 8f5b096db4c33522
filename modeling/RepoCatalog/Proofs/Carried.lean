import RepoCatalog.Proofs.Reach
import RepoCatalog.Proofs.Winner

/-!
# What a batch pass carries out

A pass reads a listing and leaves aside what the service may not hold; if it ends well, then what it
planned for the rest is stored.
-/
namespace RepoCatalog

open Step
open Time (Duration)

namespace Syncer

open Effect Catalog

variable {y : Syncer} {svc : Service} {sourced : List Repo} {least : Duration} {w w' : World}

/-- Whether the service may hold private repositories, as far as the catalog tells. -/
def sees (y : Syncer) (c : Catalog) (svc : Service) : Bool :=
  match svc.owner? with
  | none => true
  | some user => y.settings.userMode = .all || (c.users.get? user).any (·.allowsPrivate)

/-- What the service may hold of a listing. -/
def visible (y : Syncer) (c : Catalog) (svc : Service) (sourced : List Repo) : List Repo :=
  if y.sees c svc then sourced else sourced.filter fun r => !r.isPrivate

theorem mem_visible {r : Repo} {c : Catalog} : r ∈ y.visible c svc sourced ↔
    r ∈ sourced ∧ (y.sees c svc = false → r.isPrivate = false) := by
  unfold visible
  cases y.sees c svc with
  | true => simp
  | false => simp

theorem visible_subset {r : Repo} {c : Catalog} (h : r ∈ y.visible c svc sourced) :
    r ∈ sourced :=
  (mem_visible.mp h).1

theorem sees_of_sameSetting {c d : Catalog} (h : SameSetting c d) : y.sees d svc = y.sees c svc := by
  unfold sees
  rw [h.users]

theorem allowsPrivate_ok {b : Bool} (hs : w.store.catalog.Furnished)
    (h : y.allowsPrivate svc w = (.ok b, w')) : b = y.sees w.store.catalog svc := by
  unfold allowsPrivate at h
  unfold sees
  cases howner : svc.owner? with
  | none =>
      rw [howner] at h
      cases h
      rfl
  | some user =>
      rw [howner] at h
      by_cases hmode : y.settings.userMode = .all
      · simp only [hmode, if_true] at h ⊢
        cases h
        rfl
      · simp only [hmode, if_false] at h ⊢
        have hread := store_ok h
        unfold Store.allowsPrivateCode at hread
        rw [Store.run_read hs.tables] at hread
        obtain ⟨hb, -⟩ := Prod.mk.inj hread
        cases hb
        simp

theorem snd_readListing (y : Syncer) (svc : Service) (counter : Option Counter)
    (items : List Item) (w : World) : (y.readListing svc counter none items w).2 = w := by
  let quiet : Reading → Reading → Prop := fun r r' =>
    r.known = none → r'.known = none ∧ r'.world = r.world
  have : Chained quiet := by
    constructor
    · exact fun r hr => ⟨hr, rfl⟩
    · intro r s t hrs hst hr
      obtain ⟨hs, hworld⟩ := hrs hr
      obtain ⟨ht, hworld'⟩ := hst hs
      exact ⟨ht, hworld'.trans hworld⟩
  have hcount : Within quiet countListed := by
    intro r hr
    unfold countListed
    split
    · exact ⟨hr, rfl⟩
    · split
      · exact ⟨hr, rfl⟩
      · exact ⟨hr, rfl⟩
  have hinsert : ∀ repo, Within quiet (y.insertEarly svc repo) := by
    intro repo r hr
    have hrun : y.insertEarly svc repo r = (.ok (), r) := by
      unfold insertEarly
      rw [hr]
    rw [hrun]
    exact ⟨hr, rfl⟩
  have hread : quiet ⟨w, counter, none⟩ (Listing.collect (y.listingHook svc)
      (fun r => r.world.isCancelled) (.failed .cancelled) y.settings.channelCapacity items
      ⟨w, counter, none⟩).2 :=
    Listing.collect_rel fun repo _ => Within.bind hcount fun _ => hinsert repo
  exact (hread rfl).2

/-- A relation that the questions to the store stay within holds all the way to the end of the
reading if nothing is inserted early, as for services of users. -/
theorem within_reading_quietly {R : World → World → Prop} [hR : Asks R]
    (hquiet : y.settings.streamingInsert = false ∨ svc.owner?.isSome = true) :
    Within R (y.reading svc) := by
  refine Within.bindOf (P := fun counter => (counter.isNone && y.settings.streamingInsert) = false)
    (asks_counterFor y svc) ?_ fun counter hcounter => ?_
  · intro w counter w' h
    rw [Bool.and_eq_false_iff]
    refine hquiet.symm.imp_left fun howner => ?_
    rw [counterFor_ok howner h]
    rfl
  have hknown : ∀ w, y.knownFor counter w = (.ok none, w) := by
    intro w
    unfold knownFor
    rw [hcounter]
    rfl
  refine Within.bindOf (P := fun known => known = none) (asks_knownFor y counter) ?_ ?_
  · intro w known w' h
    cases (hknown w).symm.trans h
    rfl
  · rintro known rfl
    refine Within.bind (asks_itemsOf y svc) fun items w => ?_
    rw [snd_readListing]
    exact hR.refl w

theorem still_reading (hinsert : y.settings.streamingInsert = false) (svc : Service) :
    Within SameStore (y.reading svc) :=
  within_reading_quietly (.inl hinsert)

theorem ofItems_repos (sourced : List Repo) :
    Listing.ofItems (sourced.map .ok) = ⟨sourced, []⟩ := by
  unfold Listing.ofItems
  simp [List.filterMap_map, Except.toOption]

theorem ofItems_cons_repos (item : Item) (items : List Item) :
    (Listing.ofItems (item :: items)).repos =
      (Listing.ofItems [item]).repos ++ (Listing.ofItems items).repos :=
  List.filterMap_append (l := [item])

theorem judge_repos (svc : Service) (sourced : List Repo) :
    judge svc ⟨sourced, []⟩ = .ok (sourced, none) := rfl

/-- A batch pass that ends well has carried out its plan. -/
theorem batch_ok (hs : w.store.catalog.Furnished) (hid : svc.id ≠ 0)
    (hinsert : y.settings.streamingInsert = false)
    (hsource : y.sourceOf svc = .ok (sourced.map .ok)) {u : Unit}
    (h : y.batch svc least w = (.ok u, w')) :
    let seen := y.visible w.store.catalog svc sourced
    Carried w.store.catalog (atStake w.store.catalog svc seen) (planned w.store.catalog svc seen)
      w'.store.catalog := by
  rw [batch_eq] at h
  obtain ⟨listing, w₄, hread, h₄⟩ := bind_ok_iff.mp h
  have hsame : w₄.store = w.store := (still_reading hinsert svc).of_run hread
  obtain ⟨items, hitems, hlisting⟩ := reading_ok hread
  cases hsource.symm.trans hitems
  rw [ofItems_repos] at hlisting
  rw [hlisting, judge_repos] at h₄
  obtain ⟨judged, w₅, hjudged, h₅⟩ := bind_ok_iff.mp h₄
  cases hjudged
  obtain ⟨allowed, w₆, hallowed, h₆⟩ := bind_ok_iff.mp h₅
  have hstore₆ := (asks_allowsPrivate (R := SameStore) y svc).of_run hallowed
  obtain ⟨diff, w₇, happlied, h₇⟩ := bind_ok_iff.mp h₆
  have hsees := allowsPrivate_ok (hsame ▸ hs) hallowed
  rw [hsame] at hsees
  obtain ⟨v, v', hv, hrun, hcatalog⟩ :=
    transaction_ok (saved_applyBatch y svc _ least) happlied
  have hcatalog₀ : v.store.catalog = w.store.catalog :=
    (catalog_of_opened hv).trans (congrArg Store.catalog (hstore₆.trans hsame))
  have hcarried := applyBatch_ok (hcatalog₀ ▸ hs) hid hrun
  rw [hcatalog₀, hsees] at hcarried
  obtain ⟨⟨⟩, w₈, hpublish, h₈⟩ := bind_ok_iff.mp h₇
  have hstore₈ := (still_publish y diff).of_run hpublish
  cases h₈
  rw [show w'.store = w₇.store from hstore₈, hcatalog]
  exact hcarried

end Syncer

end RepoCatalog
