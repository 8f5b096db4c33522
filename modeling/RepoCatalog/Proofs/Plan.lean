import RepoCatalog.Proofs.Conflict
import RepoCatalog.Proofs.Stake

/-!
# What a batch plans

For each listed identity its first entry counts, together with the claims that are stored on it. An
entry that leads its name is brought into the catalog; what is stored under no such entry goes.
-/
namespace RepoCatalog

def Claims.solo (urn url : String) : Claims :=
  (∅ : Claims).insert urn ⟨urn, url⟩

theorem Claims.get?_solo (urn url key : String) :
    (solo urn url).get? key = if key = urn then some ⟨urn, url⟩ else none := by
  unfold solo
  rw [Dict.get?_insert, Dict.get?_empty]

/-- A repository as the source of a service lists it: without an id, live, and claimed by that
service alone. -/
structure Repo.ListedBy (svc : Service) (r : Repo) : Prop where
  id : r.id = 0
  live : r.deletedAt = none
  claims : ∃ url, r.claims = .solo svc.urn url

theorem Repo.claim_of_solo {r : Repo} {urn : String} (h : ∃ url, r.claims = .solo urn url) :
    ∃ url, r.claims.get? urn = some ⟨urn, url⟩ := by
  obtain ⟨url, hclaims⟩ := h
  exact ⟨url, by rw [hclaims, Claims.get?_solo, if_pos rfl]⟩

theorem Repo.ListedBy.of_urn {svc again : Service} {r : Repo} (h : r.ListedBy svc)
    (hurn : again.urn = svc.urn) : r.ListedBy again :=
  ⟨h.id, h.live, hurn ▸ h.claims⟩

namespace Syncer

variable {c : Catalog} {svc : Service} {sourced stored : List Repo} {claims : Dict Spec Claims}

/-- The entry of an identity that counts: the first in the order of entries. -/
def first? (sourced : List Repo) (spec : Spec) : Option Repo :=
  (Repo.sort sourced).find? (·.spec == spec)

/-- An entry that counts and has the smallest identity of all with its name. -/
def Leads (sourced : List Repo) (r : Repo) : Prop :=
  first? sourced r.spec = some r ∧
    ∀ x, first? sourced x.spec = some x → x.lowerName = r.lowerName → ¬x.spec < r.spec

theorem first?_some {spec : Spec} {r : Repo} (h : first? sourced spec = some r) :
    r ∈ sourced ∧ r.spec = spec := by
  refine ⟨?_, by simpa using List.find?_some h⟩
  exact (List.mergeSort_perm sourced _).mem_iff.mp (List.mem_of_find?_eq_some h)

theorem Leads.mem {r : Repo} (h : Leads sourced r) : r ∈ sourced :=
  (first?_some h.1).1

theorem Leads.eq_of_spec {a b : Repo} (ha : Leads sourced a) (hb : Leads sourced b)
    (h : a.spec = b.spec) : a = b :=
  Option.some.inj ((ha.1.symm.trans (congrArg _ h)).trans hb.1)

theorem Leads.eq_of_name {a b : Repo} (ha : Leads sourced a) (hb : Leads sourced b)
    (h : a.lowerName = b.lowerName) : a = b := by
  refine ha.eq_of_spec hb ?_
  by_contra hne
  rcases Spec.lt_or_gt_of_ne hne with hlt | hgt
  · exact hb.2 a ha.1 h hlt
  · exact ha.2 b hb.1 h.symm hgt

theorem exists_smallest : ∀ {rs : List Repo}, rs ≠ [] → ∃ r ∈ rs, ∀ x ∈ rs, ¬x.spec < r.spec
  | [], h => (h rfl).elim
  | [r], _ => ⟨r, List.mem_cons_self, fun x hx => by
      rw [List.mem_singleton.mp hx]
      exact Spec.lt_irrefl _⟩
  | r :: r' :: rs, _ => by
      obtain ⟨m, hm, hleast⟩ := exists_smallest (List.cons_ne_nil r' rs)
      by_cases hlt : r.spec < m.spec
      · refine ⟨r, List.mem_cons_self, fun x hx => ?_⟩
        rcases List.mem_cons.mp hx with rfl | hx
        · exact Spec.lt_irrefl _
        · exact fun hx' => hleast x hx (Spec.lt_trans hx' hlt)
      · refine ⟨m, List.mem_cons_of_mem r hm, fun x hx => ?_⟩
        rcases List.mem_cons.mp hx with rfl | hx
        · exact hlt
        · exact hleast x hx

theorem exists_leads {r : Repo} (h : first? sourced r.spec = some r) :
    ∃ x, Leads sourced x ∧ x.lowerName = r.lowerName := by
  have hne : (sourced.filter fun x =>
      first? sourced x.spec == some x && x.lowerName == r.lowerName) ≠ [] :=
    List.ne_nil_of_mem (List.mem_filter.mpr ⟨(first?_some h).1, by simp [h]⟩)
  obtain ⟨x, hx, hleast⟩ := exists_smallest hne
  obtain ⟨-, hcounts⟩ := List.mem_filter.mp hx
  obtain ⟨hfirst, hname⟩ := Bool.and_eq_true_iff.mp hcounts
  refine ⟨x, ⟨beq_iff_eq.mp hfirst, fun z hz hsame => hleast z ?_⟩, beq_iff_eq.mp hname⟩
  refine List.mem_filter.mpr ⟨(first?_some hz).1, ?_⟩
  rw [hz, hsame, hname]
  simp

theorem withStoredClaims_eq (claims : Dict Spec Claims) (r : Repo) :
    withStoredClaims claims r = { r with claims := (withStoredClaims claims r).claims } := by
  unfold withStoredClaims
  split <;> rfl

theorem spec_withStoredClaims (claims : Dict Spec Claims) (r : Repo) :
    (withStoredClaims claims r).spec = r.spec := by
  rw [withStoredClaims_eq]

theorem lowerName_withStoredClaims (claims : Dict Spec Claims) (r : Repo) :
    (withStoredClaims claims r).lowerName = r.lowerName := by
  rw [withStoredClaims_eq]
  rfl

theorem sort_map_withStoredClaims (claims : Dict Spec Claims) (rs : List Repo) :
    Repo.sort (rs.map (withStoredClaims claims)) =
      (Repo.sort rs).map (withStoredClaims claims) := by
  unfold Repo.sort
  refine (List.map_mergeSort fun a _ b _ => ?_).symm
  rw [withStoredClaims_eq claims a, withStoredClaims_eq claims b]
  rfl

theorem isSome_claims_withStoredClaims (hlisted : ∀ r ∈ sourced, r.ListedBy svc) {r : Repo}
    (hr : r ∈ sourced) (urn : String) :
    ((withStoredClaims claims r).claims.get? urn).isSome = true ↔
      urn = svc.urn ∨ (((claims.get? r.spec).getD ∅).get? urn).isSome = true := by
  obtain ⟨url, hclaims⟩ := (hlisted r hr).claims
  unfold withStoredClaims
  cases claims.get? r.spec with
  | none =>
      simp only [Option.getD_none, Dict.get?_empty, hclaims, Claims.get?_solo]
      split <;> simp [*]
  | some stored =>
      simp only [Option.getD_some, Dict.get?_union, hclaims, Claims.get?_solo]
      split <;> simp [*]

theorem get?_merged (hlisted : ∀ r ∈ sourced, r.ListedBy svc) (claims : Dict Spec Claims)
    (spec : Spec) : (Diff.mergeListed (sourced.map (withStoredClaims claims))).get? spec =
      (first? sourced spec).map (withStoredClaims claims) := by
  have hfilter : (Repo.sort (sourced.map (withStoredClaims claims))).filter (·.spec == spec) =
      ((Repo.sort sourced).filter (·.spec == spec)).map (withStoredClaims claims) := by
    rw [sort_map_withStoredClaims, List.filter_map]
    congr 1
    refine List.filter_congr fun r _ => ?_
    rw [Function.comp_apply, spec_withStoredClaims]
  rw [Diff.get?_mergeListed, hfilter, Diff.joined_eq_head?, List.head?_map, List.head?_filter]
  · rfl
  · have hentry : ∀ a ∈ ((Repo.sort sourced).filter (·.spec == spec)).map (withStoredClaims claims),
        ∃ r ∈ sourced, r.spec = spec ∧ a = withStoredClaims claims r := by
      intro a ha
      obtain ⟨r, hr, rfl⟩ := List.mem_map.mp ha
      obtain ⟨hmem, hspec⟩ := List.mem_filter.mp hr
      exact ⟨r, (List.mergeSort_perm sourced _).mem_iff.mp hmem, by simpa using hspec, rfl⟩
    intro a ha b hb urn hurn
    obtain ⟨r, hr, hspec, rfl⟩ := hentry a ha
    obtain ⟨x, hx, hspec', rfl⟩ := hentry b hb
    rw [isSome_claims_withStoredClaims hlisted hx, hspec'] at hurn
    rw [isSome_claims_withStoredClaims hlisted hr, hspec]
    exact hurn

theorem foremost_iff (hlisted : ∀ r ∈ sourced, r.ListedBy svc) {r : Repo}
    (hr : first? sourced r.spec = some r) :
    Diff.Foremost (Diff.mergeListed (sourced.map (withStoredClaims claims))).values
      (withStoredClaims claims r) ↔ Leads sourced r := by
  have hvalue : ∀ x, x ∈ (Diff.mergeListed (sourced.map (withStoredClaims claims))).values ↔
      ∃ y, first? sourced y.spec = some y ∧ x = withStoredClaims claims y := by
    intro x
    rw [Diff.mem_mergeListed_values, get?_merged hlisted]
    constructor
    · intro h
      obtain ⟨y, hy, rfl⟩ := Option.map_eq_some_iff.mp h
      rw [spec_withStoredClaims] at hy
      exact ⟨y, hy, rfl⟩
    · rintro ⟨y, hy, rfl⟩
      rw [spec_withStoredClaims, hy, Option.map_some]
  unfold Diff.Foremost Leads
  simp only [lowerName_withStoredClaims, spec_withStoredClaims, hvalue]
  constructor
  · intro h
    refine ⟨hr, fun x hx hname => ?_⟩
    have hlt := h _ ⟨x, hx, rfl⟩ ((lowerName_withStoredClaims claims x).trans hname)
    rwa [spec_withStoredClaims] at hlt
  · rintro ⟨-, h⟩ _ ⟨x, hx, rfl⟩ hname
    rw [lowerName_withStoredClaims] at hname
    rw [spec_withStoredClaims]
    exact h x hx hname

theorem get?_survivors (hlisted : ∀ r ∈ sourced, r.ListedBy svc) {spec : Spec} {x : Repo} :
    (Diff.survivorsOf (sourced.map (withStoredClaims claims))).get? spec = some x ↔
      ∃ r, r.spec = spec ∧ Leads sourced r ∧ x = withStoredClaims claims r := by
  rw [Diff.get?_survivorsOf, get?_merged hlisted]
  constructor
  · rintro ⟨hget, hfore⟩
    obtain ⟨r, hr, rfl⟩ := Option.map_eq_some_iff.mp hget
    have hspec := (first?_some hr).2
    subst hspec
    exact ⟨r, rfl, (foremost_iff hlisted hr).mp hfore, rfl⟩
  · rintro ⟨r, rfl, hleads, rfl⟩
    exact ⟨by rw [hleads.1, Option.map_some], (foremost_iff hlisted hleads.1).mpr hleads⟩

theorem get?_survivors_eq_none (hlisted : ∀ r ∈ sourced, r.ListedBy svc) {spec : Spec} :
    (Diff.survivorsOf (sourced.map (withStoredClaims claims))).get? spec = none ↔
      ∀ r, Leads sourced r → r.spec ≠ spec := by
  rw [Option.eq_none_iff_forall_ne_some]
  constructor
  · rintro h r hleads rfl
    exact h _ ((get?_survivors hlisted).mpr ⟨r, rfl, hleads, rfl⟩)
  · intro h x hx
    obtain ⟨r, hspec, hleads, -⟩ := (get?_survivors hlisted).mp hx
    exact h r hleads hspec

theorem mem_losers (hlisted : ∀ r ∈ sourced, r.ListedBy svc) {spec : Spec} :
    spec ∈ Diff.losersOf (sourced.map (withStoredClaims claims)) ↔
      ∃ r, first? sourced spec = some r ∧ ¬Leads sourced r := by
  rw [Diff.mem_losersOf]
  simp only [get?_merged hlisted]
  constructor
  · rintro ⟨x, hx, hfore⟩
    obtain ⟨r, hr, rfl⟩ := Option.map_eq_some_iff.mp hx
    refine ⟨r, hr, fun hleads => hfore ?_⟩
    exact (foremost_iff hlisted hleads.1).mpr hleads
  · rintro ⟨r, hr, hnot⟩
    refine ⟨_, by rw [hr, Option.map_some], fun hfore => hnot ?_⟩
    refine (foremost_iff hlisted ?_).mp hfore
    rw [(first?_some hr).2]
    exact hr

theorem get?_claimsBySpec (hinj : ∀ a ∈ stored, ∀ b ∈ stored, a.spec = b.spec → a = b) {old : Repo}
    (hold : old ∈ stored) : (claimsBySpec stored).get? old.spec = some old.claims := by
  unfold claimsBySpec
  refine Dict.get?_ofList_of_mem (List.mem_map.mpr ⟨old, hold, rfl⟩) fun b hb => ?_
  obtain ⟨x, hx, heq⟩ := List.mem_map.mp hb
  obtain ⟨hspec, rfl⟩ := Prod.mk.inj heq
  rw [hinj x hx old hold hspec]

theorem withStoredClaims_of_stored
    (hinj : ∀ a ∈ stored, ∀ b ∈ stored, a.spec = b.spec → a = b) {old r : Repo}
    (hold : old ∈ stored) (hspec : r.spec = old.spec) :
    withStoredClaims (claimsBySpec stored) r = { r with claims := r.claims.union old.claims } := by
  unfold withStoredClaims
  rw [hspec, get?_claimsBySpec hinj hold]

theorem withStoredClaims_of_fresh {r : Repo} (h : ∀ old ∈ stored, old.spec ≠ r.spec) :
    withStoredClaims (claimsBySpec stored) r = r := by
  have hnone : (claimsBySpec stored).get? r.spec = none := by
    unfold claimsBySpec
    rw [Dict.get?_ofList_eq_none_iff]
    intro e he
    obtain ⟨old, hold, rfl⟩ := List.mem_map.mp he
    exact h old hold
  unfold withStoredClaims
  rw [hnone]

theorem stored_inj (c : Catalog) (service : Int) (sourced : List Repo) :
    ∀ a ∈ (stakeIn c service sourced).stored, ∀ b ∈ (stakeIn c service sourced).stored,
      a.spec = b.spec → a = b := by
  intro a ha b hb
  exact (mem_stored.mp ha).1.eq_of_spec (mem_stored.mp hb).1

/-- A stored repository brought up to date with an entry, under the claims of both. -/
def updated (old r : Repo) : Repo :=
  old.revised { r with claims := r.claims.union old.claims }

/-- Whether an entry says anything new of a stored repository. -/
def isNews (old r : Repo) : Bool :=
  old.differs { r with claims := r.claims.union old.claims }

theorem spec_updated {old r : Repo} (h : r.spec = old.spec) : (updated old r).spec = r.spec := by
  unfold updated Repo.revised
  simp only []
  split
  · exact h.symm
  · rfl

theorem wins_congr {conflicting : List Repo} {r x : Repo} (hname : x.lowerName = r.lowerName)
    (hspec : x.spec = r.spec) : wins conflicting x = wins conflicting r := by
  unfold wins rivalsOf
  rw [hname, hspec]

theorem wins_updated (conflicting : List Repo) {old r : Repo} (h : r.spec = old.spec) :
    wins conflicting (updated old r) = wins conflicting r :=
  wins_congr rfl (spec_updated h)

/-- What the comparison with what is stored comes to, before names are settled. -/
def compared (c : Catalog) (svc : Service) (sourced : List Repo) : Diff :=
  let stored := (stakeIn c svc.id sourced).stored
  Diff.between (some svc.urn) (sourced.map (withStoredClaims (claimsBySpec stored))) stored

/-- What is at stake: what is stored, and what conflicts. -/
def atStake (c : Catalog) (svc : Service) (sourced : List Repo) : List Repo :=
  (stakeIn c svc.id sourced).stored ++ (stakeIn c svc.id sourced).conflicting

/-- What a batch of a service will do to a catalog. -/
def planned (c : Catalog) (svc : Service) (sourced : List Repo) : Diff :=
  plan svc sourced (stakeIn c svc.id sourced)

theorem planned_resolved (c : Catalog) (svc : Service) (sourced : List Repo) :
    ∃ dropped, (compared c svc sourced).Resolved (stakeIn c svc.id sourced).conflicting dropped
      (planned c svc sourced) :=
  (compared c svc sourced).resolved (stakeIn c svc.id sourced).conflicting

theorem planned_written (c : Catalog) (svc : Service) (sourced : List Repo) :
    (planned c svc sourced).modified ++ (planned c svc sourced).added =
      ((compared c svc sourced).modified ++ (compared c svc sourced).added).filter
        (wins (stakeIn c svc.id sourced).conflicting) := by
  obtain ⟨dropped, hres⟩ := planned_resolved c svc sourced
  rw [hres.modified, hres.added, List.filter_append]

theorem planned_deleted_cases {x : Repo} (hx : x ∈ (planned c svc sourced).deleted) :
    x ∈ (compared c svc sourced).deleted ∨
      ∃ z, Settlement.Droppable (stakeIn c svc.id sourced).conflicting
        ((compared c svc sourced).added ++ (compared c svc sourced).modified) z ∧
          x = z.unclaimed := by
  obtain ⟨dropped, hres⟩ := planned_resolved c svc sourced
  rw [hres.deleted] at hx
  exact (List.mem_append.mp hx).imp_right (hres.origin x)

theorem compared_eq (c : Catalog) (svc : Service) (sourced : List Repo) :
    compared c svc sourced = Diff.settled (some svc.urn)
      (Diff.survivorsOf (sourced.map (withStoredClaims
        (claimsBySpec (stakeIn c svc.id sourced).stored))))
      (Diff.losersOf (sourced.map (withStoredClaims
        (claimsBySpec (stakeIn c svc.id sourced).stored))))
      (stakeIn c svc.id sourced).stored :=
  Diff.between_eq _ _ (pairwise_stored c svc.id sourced)

/-- What survives of an identity is an entry of it, but for its claims. -/
theorem survivor_origin {spec : Spec} {x : Repo}
    (h : (Diff.survivorsOf (sourced.map (withStoredClaims claims))).get? spec = some x) :
    x.spec = spec ∧ ∃ r ∈ sourced, x = { r with claims := x.claims } := by
  have hmerged := (Diff.get?_survivorsOf.mp h).1
  refine ⟨Diff.spec_of_mergeListed hmerged, ?_⟩
  rw [Diff.get?_mergeListed] at hmerged
  obtain ⟨z, hz, hx⟩ := Diff.spec_of_joined hmerged
  obtain ⟨r, hr, rfl⟩ := List.mem_map.mp (List.mem_mergeSort.mp (List.mem_filter.mp hz).1)
  rw [withStoredClaims_eq] at hx
  exact ⟨r, hr, hx⟩

theorem id_of_compared_added (hids : ∀ r ∈ sourced, r.id = 0) {x : Repo}
    (hx : x ∈ (compared c svc sourced).added) : x.id = 0 := by
  rw [compared_eq] at hx
  obtain ⟨spec, hget⟩ := Dict.mem_values.mp hx
  rw [Diff.get?_arrivals] at hget
  split at hget
  · cases hget
  · obtain ⟨-, r, hr, hx⟩ := survivor_origin hget
    rw [hx]
    exact hids r hr

section

variable (hlisted : ∀ r ∈ sourced, r.ListedBy svc)
include hlisted

theorem mem_compared_added {x : Repo} : x ∈ (compared c svc sourced).added ↔
    Leads sourced x ∧ ∀ old ∈ (stakeIn c svc.id sourced).stored, old.spec ≠ x.spec := by
  rw [compared_eq]
  unfold Diff.settled
  rw [Dict.mem_values]
  simp only [Diff.get?_arrivals]
  constructor
  · rintro ⟨spec, h⟩
    split at h
    · cases h
    · rename_i hnone
      obtain ⟨r, rfl, hleads, rfl⟩ := (get?_survivors hlisted).mp h
      have hfresh : ∀ old ∈ (stakeIn c svc.id sourced).stored, old.spec ≠ r.spec :=
        fun old hold heq => hnone ⟨old, hold, heq⟩
      rw [withStoredClaims_of_fresh hfresh]
      exact ⟨hleads, hfresh⟩
  · rintro ⟨hleads, hfresh⟩
    refine ⟨x.spec, ?_⟩
    rw [if_neg (by rintro ⟨old, hold, heq⟩; exact hfresh old hold heq), get?_survivors hlisted]
    exact ⟨x, rfl, hleads, (withStoredClaims_of_fresh hfresh).symm⟩

theorem revision_eq {old x : Repo} (hold : old ∈ (stakeIn c svc.id sourced).stored) :
    Diff.revision (Diff.survivorsOf (sourced.map (withStoredClaims
        (claimsBySpec (stakeIn c svc.id sourced).stored)))) old = some x ↔
      ∃ r, Leads sourced r ∧ r.spec = old.spec ∧ isNews old r = true ∧ x = updated old r := by
  unfold Diff.revision
  rw [Option.bind_eq_some_iff]
  constructor
  · rintro ⟨listed, hget, h⟩
    obtain ⟨r, hspec, hleads, rfl⟩ := (get?_survivors hlisted).mp hget
    rw [withStoredClaims_of_stored (stored_inj _ _ _) hold hspec] at h
    split at h
    · rename_i hnews
      cases h
      exact ⟨r, hleads, hspec, hnews, rfl⟩
    · cases h
  · rintro ⟨r, hleads, hspec, hnews, rfl⟩
    refine ⟨_, (get?_survivors hlisted).mpr ⟨r, hspec, hleads, rfl⟩, ?_⟩
    rw [withStoredClaims_of_stored (stored_inj _ _ _) hold hspec]
    exact if_pos hnews

theorem mem_compared_modified {x : Repo} : x ∈ (compared c svc sourced).modified ↔
    ∃ old ∈ (stakeIn c svc.id sourced).stored, ∃ r, Leads sourced r ∧ r.spec = old.spec ∧
      isNews old r = true ∧ x = updated old r := by
  rw [compared_eq]
  unfold Diff.settled
  rw [List.mem_filterMap]
  constructor
  · rintro ⟨old, hold, h⟩
    exact ⟨old, hold, (revision_eq hlisted hold).mp h⟩
  · rintro ⟨old, hold, h⟩
    exact ⟨old, hold, (revision_eq hlisted hold).mpr h⟩

theorem mem_compared_unmodified {x : Repo} : x ∈ (compared c svc sourced).unmodified ↔
    x ∈ (stakeIn c svc.id sourced).stored ∧
      ∃ r, Leads sourced r ∧ r.spec = x.spec ∧ isNews x r = false := by
  rw [compared_eq]
  unfold Diff.settled
  rw [List.mem_filter]
  refine and_congr_right fun hx => ?_
  unfold Diff.stays
  rw [Option.any_eq_true]
  constructor
  · rintro ⟨listed, hget, h⟩
    obtain ⟨r, hspec, hleads, rfl⟩ := (get?_survivors hlisted).mp hget
    rw [withStoredClaims_of_stored (stored_inj _ _ _) hx hspec] at h
    rw [Bool.not_eq_true'] at h
    exact ⟨r, hleads, hspec, h⟩
  · rintro ⟨r, hleads, hspec, hnews⟩
    refine ⟨_, (get?_survivors hlisted).mpr ⟨r, hspec, hleads, rfl⟩, ?_⟩
    rw [withStoredClaims_of_stored (stored_inj _ _ _) hx hspec, Bool.not_eq_true']
    exact hnews

theorem mem_compared_deleted {x : Repo} : x ∈ (compared c svc sourced).deleted ↔
    ∃ old ∈ (stakeIn c svc.id sourced).stored, (∀ r, Leads sourced r → r.spec ≠ old.spec) ∧
      ((first? sourced old.spec = none ∧ x = { old with claims := old.claims.erase svc.urn }) ∨
        (first? sourced old.spec ≠ none ∧ x = old.unclaimed)) := by
  rw [compared_eq]
  unfold Diff.settled
  rw [List.mem_filterMap]
  refine exists_congr fun old => and_congr_right fun hold => ?_
  unfold Diff.departure
  cases hget : (Diff.survivorsOf (sourced.map (withStoredClaims
      (claimsBySpec (stakeIn c svc.id sourced).stored)))).get? old.spec with
  | some listed =>
      obtain ⟨r, hspec, hleads, -⟩ := (get?_survivors hlisted).mp hget
      constructor
      · intro h
        cases h
      · rintro ⟨hnone, -⟩
        exact absurd hspec (hnone r hleads)
  | none =>
      have hnone := (get?_survivors_eq_none hlisted).mp hget
      have hlosers : old.spec ∈ Diff.losersOf (sourced.map (withStoredClaims
          (claimsBySpec (stakeIn c svc.id sourced).stored))) ↔ first? sourced old.spec ≠ none := by
        rw [mem_losers hlisted]
        constructor
        · rintro ⟨r, hr, -⟩ hnil
          rw [hr] at hnil
          cases hnil
        · intro hsome
          obtain ⟨r, hr⟩ := Option.ne_none_iff_exists'.mp hsome
          exact ⟨r, hr, fun hleads => hnone r hleads (first?_some hr).2⟩
      simp only [hlosers, Option.some.injEq]
      by_cases hfirst : first? sourced old.spec = none
      · simp only [hfirst, ne_eq, not_true_eq_false, if_false, false_and, or_false, true_and]
        constructor
        · rintro rfl
          exact ⟨hnone, rfl⟩
        · rintro ⟨-, rfl⟩
          rfl
      · simp only [hfirst, ne_eq, not_false_eq_true, if_true, false_and, false_or, true_and]
        constructor
        · rintro rfl
          exact ⟨hnone, rfl⟩
        · rintro ⟨-, rfl⟩
          rfl

theorem pairwise_compared :
    ((compared c svc sourced).modified ++ (compared c svc sourced).added).Pairwise
      fun a b => a.spec ≠ b.spec := by
  rw [List.pairwise_append]
  refine ⟨Diff.pairwise_modified _ _ (pairwise_stored c svc.id sourced),
    Diff.pairwise_added _ _ (pairwise_stored c svc.id sourced), fun x hx y hy => ?_⟩
  obtain ⟨old, hold, r, -, hspec, -, rfl⟩ := (mem_compared_modified hlisted).mp hx
  rw [spec_updated hspec, hspec]
  exact ((mem_compared_added hlisted).mp hy).2 old hold

theorem listed_of_compared {x : Repo}
    (hx : x ∈ (compared c svc sourced).modified ++ (compared c svc sourced).added) :
    ∃ r, Leads sourced r ∧ x.spec = r.spec ∧ x.lowerName = r.lowerName := by
  rcases List.mem_append.mp hx with hx | hx
  · obtain ⟨old, -, r, hleads, hspec, -, rfl⟩ := (mem_compared_modified hlisted).mp hx
    exact ⟨r, hleads, spec_updated hspec, rfl⟩
  · exact ⟨x, ((mem_compared_added hlisted).mp hx).1, rfl, rfl⟩

end

/-- What a difference deletes was seen before under the same id and identity, and it loses the claim
of the service or all claims. -/
structure Releases (c : Catalog) (svc : Service) (previous : List Repo) (d : Diff) : Prop where
  shown : ∀ r ∈ previous, c.Shows r
  deleted : ∀ x ∈ d.deleted, ∃ old ∈ previous, x.id = old.id ∧ x.spec = old.spec ∧
    (x.claims = ∅ ∨ x.claims = old.claims.erase svc.urn)

/-- A difference that can be carried out on what a catalog holds: what is modified or deleted was
seen before under the same id and identity, and keeps the claims of other services or loses all. -/
structure Feasible (c : Catalog) (svc : Service) (previous : List Repo) (d : Diff) : Prop
    extends Releases c svc previous d where
  modified : ∀ x ∈ d.modified, ∃ old ∈ previous, x.id = old.id ∧ x.spec = old.spec ∧
    ∃ url, x.claims = (Claims.solo svc.urn url).union old.claims
  added : ∀ x ∈ d.added, x.id = 0 ∧ (∀ r, c.Shows r → r.spec ≠ x.spec) ∧
    ∃ url, x.claims = .solo svc.urn url
  written : (d.modified ++ d.added).Pairwise fun a b => a.spec ≠ b.spec
  apart : ∀ x ∈ d.deleted, ∀ y ∈ d.modified ++ d.added, x.spec ≠ y.spec

/-- What is deleted was at stake: no longer listed, beaten as a holder, or beaten by a holder. -/
theorem releases_plan (hids : ∀ r ∈ sourced, r.id = 0) :
    Releases c svc (atStake c svc sourced) (planned c svc sourced) := by
  refine ⟨fun r hr => ?_, fun x hx => ?_⟩
  · rcases List.mem_append.mp hr with hr | hr
    · exact (mem_stored.mp hr).1
    · exact (mem_conflicting.mp hr).1
  rcases planned_deleted_cases hx with hx | ⟨y, ⟨r, -, hrival, -⟩ | ⟨hy, hne, -⟩, rfl⟩
  · rw [compared_eq] at hx
    obtain ⟨old, hold, hx⟩ := List.mem_filterMap.mp hx
    refine ⟨old, List.mem_append_left _ hold, ?_⟩
    unfold Diff.departure at hx
    split at hx
    · cases hx
    · split at hx
      · cases hx
        exact ⟨rfl, rfl, .inl rfl⟩
      · cases hx
        exact ⟨rfl, rfl, .inr rfl⟩
  · exact ⟨y, List.mem_append_right _ (mem_rivalsOf.mp hrival).1, rfl, rfl, .inl rfl⟩
  · rcases List.mem_append.mp hy with hy | hy
    · exact absurd (id_of_compared_added hids hy) hne
    · rw [compared_eq] at hy
      obtain ⟨old, hold, hy⟩ := List.mem_filterMap.mp hy
      have hid := Diff.id_of_revision hy
      have hspec := Diff.spec_of_revision hy
      exact ⟨old, List.mem_append_left _ hold, hid, hspec, .inl rfl⟩

section

variable (hlisted : ∀ r ∈ sourced, r.ListedBy svc)
include hlisted

theorem planned_apart {x y : Repo} (hx : x ∈ (planned c svc sourced).deleted)
    (hy : y ∈ (planned c svc sourced).modified ++ (planned c svc sourced).added) :
    x.spec ≠ y.spec := by
  intro hspec
  rw [planned_written] at hy
  obtain ⟨hy, hwins⟩ := List.mem_filter.mp hy
  obtain ⟨r, hleads, hyspec, -⟩ := listed_of_compared hlisted hy
  rcases planned_deleted_cases hx with hx | ⟨z, ⟨_, -, hrival, -⟩ | ⟨hz, -, hlost⟩, rfl⟩
  · obtain ⟨old, -, hnone, hx⟩ := (mem_compared_deleted hlisted).mp hx
    have holdspec : x.spec = old.spec := by
      rcases hx with ⟨-, rfl⟩ | ⟨-, rfl⟩ <;> rfl
    exact hnone r hleads (hyspec.symm.trans (hspec.symm.trans holdspec))
  · have hfree := (mem_conflicting.mp (mem_rivalsOf.mp hrival).1).2.2.1
    exact hfree r hleads.mem (hyspec.symm.trans hspec.symm)
  · have hz' := List.mem_append.mpr (List.mem_append.mp hz).symm
    have hzy := eq_of_pairwise_spec (pairwise_compared hlisted) hz' hy hspec
    rw [hzy, hwins] at hlost
    cases hlost

theorem compared_unwritten {x y : Repo} (hx : x ∈ (compared c svc sourced).unmodified)
    (hy : y ∈ (compared c svc sourced).modified ++ (compared c svc sourced).added) :
    y.spec ≠ x.spec := by
  obtain ⟨hstored, r, hleads, hrspec, hsame⟩ := (mem_compared_unmodified hlisted).mp hx
  rcases List.mem_append.mp hy with hy | hy
  · obtain ⟨old, hold, q, hleads', hqspec, hnews, rfl⟩ := (mem_compared_modified hlisted).mp hy
    rw [spec_updated hqspec]
    intro hspec
    obtain rfl := stored_inj _ _ _ old hold x hstored (hqspec.symm.trans hspec)
    obtain rfl := hleads.eq_of_spec hleads' (hrspec.trans hspec.symm)
    cases hsame.symm.trans hnews
  · exact (((mem_compared_added hlisted).mp hy).2 x hstored).symm

theorem planned_undeleted {x y : Repo} (hx : x ∈ (planned c svc sourced).unmodified)
    (hy : y ∈ (planned c svc sourced).deleted) : y.spec ≠ x.spec := by
  intro hspec
  obtain ⟨dropped, hres⟩ := planned_resolved c svc sourced
  rw [hres.unmodified] at hx
  obtain ⟨hstored, r, hleads, hrspec, -⟩ := (mem_compared_unmodified hlisted).mp hx
  rcases planned_deleted_cases hy with hy | ⟨z, ⟨_, -, hrival, -⟩ | ⟨hz, -⟩, rfl⟩
  · obtain ⟨old, -, hnone, hy⟩ := (mem_compared_deleted hlisted).mp hy
    have holdspec : y.spec = old.spec := by
      rcases hy with ⟨-, rfl⟩ | ⟨-, rfl⟩ <;> rfl
    exact hnone r hleads (hrspec.trans (hspec.symm.trans holdspec))
  · have hfree := (mem_conflicting.mp (mem_rivalsOf.mp hrival).1).2.2.1
    exact hfree r hleads.mem (hrspec.trans hspec.symm)
  · have hz' := List.mem_append.mpr (List.mem_append.mp hz).symm
    exact compared_unwritten hlisted hx hz' hspec

theorem planned_once : ((planned c svc sourced).repos.map (·.spec)).Nodup := by
  obtain ⟨dropped, hres⟩ := planned_resolved c svc sourced
  have hstored := pairwise_stored c svc.id sourced
  have hdeleted : ((planned c svc sourced).deleted.map (·.spec)).Nodup :=
    hres.once (List.pairwise_map.mpr (Diff.pairwise_deleted _ _ hstored))
  have hunmodified : (planned c svc sourced).unmodified.Pairwise fun a b => a.spec ≠ b.spec := by
    rw [hres.unmodified]
    unfold compared
    simp only []
    rw [Diff.between_eq _ _ hstored]
    exact hstored.filter _
  have hwritten : ∀ y ∈ (planned c svc sourced).modified ++ (planned c svc sourced).added,
      ∀ x ∈ (planned c svc sourced).unmodified, y.spec ≠ x.spec := by
    intro y hy x hx
    rw [hres.unmodified] at hx
    rw [planned_written] at hy
    exact compared_unwritten hlisted hx (List.mem_filter.mp hy).1
  have hpairs : ((planned c svc sourced).modified ++ (planned c svc sourced).added).Pairwise
      fun a b => a.spec ≠ b.spec := by
    rw [planned_written]
    exact (pairwise_compared hlisted).filter _
  obtain ⟨hmodified, hadded, hcross⟩ := List.pairwise_append.mp hpairs
  refine List.pairwise_map.mpr (List.pairwise_append.mpr ⟨List.pairwise_append.mpr
    ⟨List.pairwise_append.mpr ⟨hadded, List.pairwise_map.mp hdeleted, ?_⟩, hmodified, ?_⟩,
    hunmodified, ?_⟩)
  · intro a ha b hb
    exact (planned_apart hlisted hb (List.mem_append_right _ ha)).symm
  · intro a ha b hb
    rcases List.mem_append.mp ha with ha | ha
    · exact (hcross b hb a ha).symm
    · exact planned_apart hlisted ha (List.mem_append_left _ hb)
  · intro a ha b hb
    rcases List.mem_append.mp ha with ha | ha
    · rcases List.mem_append.mp ha with ha | ha
      · exact hwritten a (List.mem_append_right _ ha) b hb
      · exact planned_undeleted hlisted hb ha
    · exact hwritten a (List.mem_append_left _ ha) b hb

theorem feasible_plan : Feasible c svc (atStake c svc sourced) (planned c svc sourced) := by
  obtain ⟨dropped, hres⟩ := planned_resolved c svc sourced
  refine ⟨releases_plan fun r hr => (hlisted r hr).id, fun x hx => ?_, fun x hx => ?_, ?_, ?_⟩
  · rw [hres.modified] at hx
    obtain ⟨old, hold, r, hleads, hspec, -, rfl⟩ :=
      (mem_compared_modified hlisted).mp (List.mem_filter.mp hx).1
    obtain ⟨url, hclaims⟩ := (hlisted r hleads.mem).claims
    refine ⟨old, List.mem_append_left _ hold, rfl, (spec_updated hspec).trans hspec, url, ?_⟩
    rw [← hclaims]
    rfl
  · rw [hres.added] at hx
    obtain ⟨hleads, hfresh⟩ := (mem_compared_added hlisted).mp (List.mem_filter.mp hx).1
    refine ⟨(hlisted x hleads.mem).id, fun r hr heq => ?_, (hlisted x hleads.mem).claims⟩
    exact hfresh r (mem_stored.mpr ⟨hr, .inr ⟨x, hleads.mem, heq.symm⟩⟩) heq
  · rw [planned_written]
    exact (pairwise_compared hlisted).filter _
  · exact fun x hx y hy => planned_apart hlisted hx hy

end

end Syncer

end RepoCatalog
