import Mathlib.Data.Finset.Card
import RepoCatalog.Proofs.Single

/-!
# What counts as added by users

A repository counts for a user as long as a membership bears the stamp of that user, whichever
service the membership is of. Deletions, sweeps and visits never make more repositories count.
Bringing a single repository up to date makes one more count at most: one that was in the catalog
before, or else one for which there was room below the ceilings.
-/
namespace RepoCatalog

open Step
open Time (Duration)

namespace Dict

theorem size_ofList_unit {κ : Type} [Ord κ] [Std.TransOrd κ] [Std.LawfulEqOrd κ] [DecidableEq κ]
    (ks : List κ) : (ofList (ks.map fun k => (k, ()))).size = ks.toFinset.card := by
  let d := ofList (ks.map fun k => (k, ()))
  have hmem : ∀ k, k ∈ d.keys ↔ k ∈ ks := fun _ => mem_keys_ofList_unit
  calc d.size = d.keys.length := (List.length_map _).symm
    _ = d.keys.toFinset.card := (List.toFinset_card_of_nodup d.nodup_keys).symm
    _ = ks.toFinset.card := by
      congr 1
      ext k
      rw [List.mem_toFinset, List.mem_toFinset, hmem]

end Dict

/-- Whether a membership counts for some users, or, if none are named, for any user. -/
def Membership.countsFor (m : Membership) (users : List Int) : Bool :=
  m.userId.any fun u => users.isEmpty || users.contains u

theorem Membership.countsFor_iff {m : Membership} {users : List Int} :
    m.countsFor users = true ↔ ∃ u, m.userId = some u ∧ (users = [] ∨ u ∈ users) := by
  unfold countsFor
  rw [Option.any_eq_true]
  simp only [Bool.or_eq_true, List.isEmpty_iff, List.contains_iff_mem]

namespace Catalog

variable {c d : Catalog} {svc : Service} {x x' : Repo} {ids keep users : List Int} {j : Int}

/-- The repositories that count as added by some users, or, if none are named, by any user. -/
def userAdded (c : Catalog) (users : List Int) : Finset Int :=
  ((c.members.entries.filter fun e => e.2.countsFor users).map (·.1.repo)).toFinset

theorem mem_userAdded : j ∈ c.userAdded users ↔
    ∃ s m, c.members.get? ⟨j, s⟩ = some m ∧ m.countsFor users = true := by
  unfold userAdded
  simp only [List.mem_toFinset, List.mem_map, List.mem_filter, Prod.exists, Dict.get?_eq_some_iff]
  constructor
  · rintro ⟨⟨repo, s⟩, m, ⟨hmem, hcounts⟩, rfl⟩
    exact ⟨s, m, hmem, hcounts⟩
  · rintro ⟨s, m, hmem, hcounts⟩
    exact ⟨⟨j, s⟩, m, ⟨hmem, hcounts⟩, rfl⟩

theorem userAdded_of_members (h : d.members = c.members) (users : List Int) :
    d.userAdded users = c.userAdded users := by
  unfold userAdded
  rw [h]

theorem userAdded_of_empty (h : c.members = ∅) (users : List Int) : c.userAdded users = ∅ := by
  unfold userAdded
  rw [h]
  rfl

theorem userAdded_subset
    (h : ∀ k m, d.members.get? k = some m → c.members.get? k = some m) (users : List Int) :
    d.userAdded users ⊆ c.userAdded users := by
  intro j hj
  obtain ⟨s, m, hm, hcounts⟩ := mem_userAdded.mp hj
  exact mem_userAdded.mpr ⟨s, m, h _ m hm, hcounts⟩

theorem Deleted.member_of_member (h : Deleted c ids d) {k : MemberKey} {m : Membership}
    (hm : d.members.get? k = some m) : c.members.get? k = some m := by
  rw [h.members] at hm
  split at hm
  · cases hm
  · exact hm

theorem Swept.member_of_member (h : Swept c svc keep ids d) {k : MemberKey} {m : Membership}
    (hm : d.members.get? k = some m) : c.members.get? k = some m := by
  rw [h.members] at hm
  split at hm
  · cases hm
  · exact hm

theorem Deleted.userAdded_subset (h : Deleted c ids d) (users : List Int) :
    d.userAdded users ⊆ c.userAdded users :=
  Catalog.userAdded_subset (fun _ _ => h.member_of_member) users

theorem Swept.userAdded_subset (h : Swept c svc keep ids d) (users : List Int) :
    d.userAdded users ⊆ c.userAdded users :=
  Catalog.userAdded_subset (fun _ _ => h.member_of_member) users

theorem Joined.mem_userAdded (h : Joined c svc x x' d) (hj : j ∈ d.userAdded users) :
    j ∈ c.userAdded users ∨ j = x'.id ∧ ∃ u, svc.owner? = some u ∧ (users = [] ∨ u ∈ users) := by
  obtain ⟨s, m, hm, hcounts⟩ := Catalog.mem_userAdded.mp hj
  by_cases hk : (⟨j, s⟩ : MemberKey) = ⟨x'.id, svc.id⟩
  · obtain ⟨-, claim, -, hmembers⟩ := h
    rw [hmembers, hk, Dict.get?_insert, if_pos rfl] at hm
    cases hm
    exact .inr ⟨congrArg MemberKey.repo hk, Membership.countsFor_iff.mp hcounts⟩
  · rw [h.member_of_ne hk] at hm
    exact .inl (Catalog.mem_userAdded.mpr ⟨s, m, hm, hcounts⟩)

end Catalog

theorem Store.run_countUserAdded {s : Store} (hs : s.catalog.Complete) (users : List Int) :
    Store.countUserAdded users s = (.ok (s.catalog.userAdded users).card, s) := by
  unfold countUserAdded
  rw [Store.run_read hs]
  unfold Catalog.userAdded
  rw [← Dict.size_ofList_unit, List.map_map]
  rfl

/-- Whose repositories are counted together, and up to which ceiling: those of each user, and those
of all users of the site. -/
inductive Quota.Caps (q : Quota) : List Int → Nat → Prop where
  | user (u : Int) : q.Caps [u] q.perUser
  | site : q.Caps [] q.perSite

theorem Quota.checkInsert_ok {q : Quota} {site own : Nat} (h : q.checkInsert site own = .ok ()) :
    site < q.perSite ∧ own < q.perUser := by
  unfold checkInsert at h
  split at h
  · cases h
  · omega

namespace Catalog

/-- What bringing a single repository up to date may make count: one more at most, for the owner of
the service alone, and if it was not in the catalog before, then no ceiling had been reached. -/
structure Adds (q : Quota) (svc : Service) (c d : Catalog) : Prop where
  one : ∃ j, ∀ users, d.userAdded users ⊆ insert j (c.userAdded users)
  owner : ∀ users, ∀ j ∈ d.userAdded users, j ∉ c.userAdded users →
    ∃ u, svc.owner? = some u ∧ (users = [] ∨ u ∈ users)
  room : ∀ users limit, q.Caps users limit → ∀ j ∈ d.userAdded users, j ∉ c.userAdded users →
    c.repos.get? j = none → (c.userAdded users).card < limit

variable {q : Quota} {svc : Service} {c d e : Catalog} {x x' : Repo} {ids : List Int}

theorem Adds.of_subset (q : Quota) (svc : Service)
    (h : ∀ users, d.userAdded users ⊆ c.userAdded users) : Adds q svc c d :=
  ⟨⟨0, fun users => (h users).trans (Finset.subset_insert _ _)⟩,
    fun users _ hj hnot => absurd (h users hj) hnot,
    fun users _ _ _ hj hnot => absurd (h users hj) hnot⟩

theorem Adds.of_joined (hdeleted : Deleted c ids d) (h : Joined d svc x x' e)
    (hroom : c.repos.get? x'.id = none → ∀ u, svc.owner? = some u →
      (c.userAdded []).card < q.perSite ∧ (c.userAdded [u]).card < q.perUser) :
    Adds q svc c e := by
  have hnew : ∀ {users : List Int} {j : Int}, j ∈ e.userAdded users → j ∉ c.userAdded users →
      j = x'.id ∧ ∃ u, svc.owner? = some u ∧ (users = [] ∨ u ∈ users) := fun hj hnot =>
    (h.mem_userAdded hj).resolve_left fun hd => hnot (hdeleted.userAdded_subset _ hd)
  refine ⟨⟨x'.id, fun users j hj => ?_⟩, fun users j hj hnot => (hnew hj hnot).2, ?_⟩
  · by_cases hold : j ∈ c.userAdded users
    · exact Finset.mem_insert_of_mem hold
    · rw [(hnew hj hold).1]
      exact Finset.mem_insert_self _ _
  · intro users limit hcaps j hj hnot hfresh
    obtain ⟨rfl, u, hu, hamong⟩ := hnew hj hnot
    obtain ⟨hsite, hown⟩ := hroom hfresh u hu
    cases hcaps with
    | site => exact hsite
    | user v =>
        have hsame : u = v := hamong.elim (fun h => (by cases h)) List.mem_singleton.mp
        exact hsame ▸ hown

end Catalog

namespace Syncer

open Effect Catalog

variable {y : Syncer} {svc : Service} {r : Repo} {w w' : World} {d : Diff}

theorem checkQuota_ok {r : Except QuotaError Unit} (h : checkQuota r w = (.ok (), w')) :
    r = .ok () :=
  (ofExcept_ok (run_mapError_ok.mp h)).1

theorem checkRoom_ok (hs : w.store.catalog.Furnished) (h : y.checkRoom svc w = (.ok (), w'))
    {u : Int} (hu : svc.owner? = some u) :
    (w.store.catalog.userAdded []).card < y.quota.perSite ∧
      (w.store.catalog.userAdded [u]).card < y.quota.perUser := by
  unfold checkRoom at h
  rw [hu] at h
  obtain ⟨site, v, hsite, h⟩ := bind_ok_iff.mp h
  obtain ⟨own, v', hown, h⟩ := bind_ok_iff.mp h
  have hread := store_ok hsite
  rw [Store.run_countUserAdded hs.tables] at hread
  obtain ⟨hcount, hstore⟩ := Prod.mk.inj hread
  have hread' := store_ok hown
  rw [← hstore, Store.run_countUserAdded hs.tables] at hread'
  obtain ⟨hcount', -⟩ := Prod.mk.inj hread'
  cases hcount
  cases hcount'
  exact Quota.checkInsert_ok (checkQuota_ok h)

theorem reconcile_adds (hs : w.store.catalog.Furnished) (h : y.reconcile svc r w = (.ok d, w')) :
    Adds y.quota svc w.store.catalog w'.store.catalog := by
  obtain ⟨rival, existing, ds, d', v, v', htold, hstore, hdisplace, -, hend⟩ :=
    reconcile_inv hs.tables h
  rw [← hstore] at hs htold ⊢
  obtain ⟨hdeleted, -⟩ := displace_deleted hs.tables hdisplace
  have hs' := hs.of_sameSetting hdeleted.setting
  rcases hend with ⟨x, rfl, hrefresh⟩ | ⟨rfl, u, hroom, hu, hintroduce⟩
  · rcases refresh_cases hs'.tables hrefresh with ⟨-, rfl, -⟩ | ⟨-, x', hid, hjoined, -⟩
    · exact .of_subset _ _ hdeleted.userAdded_subset
    · -- A row that is brought up to date was in the catalog before, and nobody asks for room.
      obtain ⟨row, hrow, -⟩ := htold.own x rfl
      refine .of_joined hdeleted hjoined fun hfresh => ?_
      rw [hid, hrow] at hfresh
      cases hfresh
  · cases htold.rival_eq_none
    cases hdisplace
    rw [← hu] at hs'
    obtain ⟨added, hjoined, -⟩ := introduce_joined hs'.tables hintroduce
    rw [hu] at hjoined
    exact .of_joined hdeleted hjoined fun _ user howner => checkRoom_ok hs hroom howner

/-- Whatever comes of it, bringing a repository up to date makes one more count at most. -/
theorem sync_adds (hs : w.store.catalog.Furnished) (y : Syncer) (svc : Service) (r : Repo) :
    Adds y.quota svc w.store.catalog (y.sync svc r w).2.store.catalog :=
  onFurnished_sync (fun _ => .of_subset _ _ fun _ => Finset.Subset.refl _)
    (fun _ _ _ hv hrun => reconcile_adds hv hrun) w hs

end Syncer

end RepoCatalog
