import Mathlib.Data.List.Nodup
import Mathlib.Data.List.Perm.Subperm
import RepoCatalog.Proofs.Edits

/-!
# The fewest edits of claims

The edits between two sets of claims turn the first into the second, no two of them are about one
service, and none can be left out. The edits of a difference turn the claims on each repository
that it adds, modifies or deletes into those that it gives, and concern no other repository.
-/
namespace RepoCatalog

namespace ClaimEdits

def WellNamed (claims : Claims) : Prop :=
  ∀ urn claim, claims.get? urn = some claim → claim.urn = urn

theorem wellNamed_iff {claims : Claims} :
    WellNamed claims ↔ ∀ e ∈ claims.entries, e.2.urn = e.1 := by
  simp only [WellNamed, Dict.get?_eq_some_iff, Prod.forall]

instance : DecidablePred WellNamed := fun _ =>
  decidable_of_iff' _ wellNamed_iff

section

variable {old new claims : Claims} {cs : List Claim} {claim : Claim} {urn : String}
  {e : ClaimEdits}

/-- Claims by the names of their services, of which the last counts. -/
def byName (cs : List Claim) : Claims :=
  .ofList (cs.map fun c => (c.urn, c))

theorem mem_of_get?_byName (h : (byName cs).get? urn = some claim) :
    claim ∈ cs ∧ claim.urn = urn := by
  obtain ⟨c, hc, heq⟩ := List.mem_map.mp (Dict.mem_of_get?_ofList h)
  cases heq
  exact ⟨hc, rfl⟩

theorem get?_byName_eq_none_iff : (byName cs).get? urn = none ↔ ∀ c ∈ cs, c.urn ≠ urn := by
  rw [byName, Dict.get?_ofList_eq_none_iff]
  simp only [List.forall_mem_map]

theorem get?_foldl_erase (cs : List Claim) (claims : Claims) (urn : String) :
    (cs.foldl (fun d c => d.erase c.urn) claims).get? urn =
      if ∃ c ∈ cs, c.urn = urn then none else claims.get? urn := by
  induction cs generalizing claims with
  | nil => simp
  | cons c cs ih =>
      rw [List.foldl_cons, ih, Dict.get?_erase]
      by_cases hc : c.urn = urn
      · simp [hc]
      · simp [hc, Ne.symm hc]

theorem get?_apply (e : ClaimEdits) (claims : Claims) (urn : String) :
    (e.apply claims).get? urn = ((byName (e.modified ++ e.added)).get? urn).or
      (if ∃ c ∈ e.deleted, c.urn = urn then none else claims.get? urn) := by
  rw [← get?_foldl_erase, byName, ← Dict.get?_foldl_insert, List.foldl_map]
  rfl

theorem get?_of_renews (hnew : WellNamed new) (h : Renews old new claim) :
    new.get? claim.urn = some claim := by
  obtain ⟨urn, hget, -⟩ := h
  rw [hnew urn claim hget]
  exact hget

theorem mem_stored_iff :
    claim ∈ (between old new).modified ++ (between old new).added ↔ Renews old new claim := by
  rw [List.mem_append, or_comm, renews_iff]

theorem get?_of_not_renews (hold : WellNamed old) (hnew : WellNamed new)
    (hclaim : new.get? urn = some claim) (h : ¬Renews old new claim) :
    old.get? urn = some claim := by
  by_contra hother
  apply h
  refine ⟨urn, hclaim, ?_⟩
  intro first hfirst hurl
  have hname : claim.urn = first.urn := (hnew urn claim hclaim).trans (hold urn first hfirst).symm
  have hsame : claim = first := by
    cases claim
    cases first
    simp_all
  exact hother (hsame ▸ hfirst)

theorem exists_deleted_iff (hold : WellNamed old) :
    (∃ c ∈ (between old new).deleted, c.urn = urn) ↔
      (old.get? urn).isSome = true ∧ new.get? urn = none := by
  constructor
  · rintro ⟨c, hc, rfl⟩
    obtain ⟨urn, hfirst, hnone⟩ := mem_deleted.mp hc
    rw [hold urn c hfirst, hfirst]
    exact ⟨rfl, hnone⟩
  · rintro ⟨hsome, hnone⟩
    obtain ⟨first, hfirst⟩ := Option.isSome_iff_exists.mp hsome
    exact ⟨first, mem_deleted.mpr ⟨urn, hfirst, hnone⟩, hold urn first hfirst⟩

/-- The edits between two sets of claims turn the first into the second. -/
theorem apply_between (hold : WellNamed old) (hnew : WellNamed new) :
    (between old new).apply old = new := by
  apply Dict.ext_get?
  intro urn
  simp only [get?_apply, exists_deleted_iff hold]
  cases hput : (byName ((between old new).modified ++ (between old new).added)).get? urn with
  | some claim =>
      obtain ⟨hmem, rfl⟩ := mem_of_get?_byName hput
      rw [get?_of_renews hnew (mem_stored_iff.mp hmem)]
      rfl
  | none =>
      rw [get?_byName_eq_none_iff] at hput
      rw [Option.none_or]
      cases hget : new.get? urn with
      | some claim =>
          have hnot : ¬Renews old new claim := fun h =>
            hput claim (mem_stored_iff.mpr h) (hnew urn claim hget)
          simp [get?_of_not_renews hold hnew hget hnot]
      | none => cases old.get? urn <;> simp

/-- Whatever edits turn `old` into `new` store what is new or says a new address. -/
theorem mem_of_renews (he : e.apply old = new) (hnew : WellNamed new) (h : Renews old new claim) :
    claim ∈ e.modified ++ e.added := by
  have hget := get?_of_renews hnew h
  obtain ⟨urn, hclaim, hurl⟩ := h
  have hname := hnew urn claim hclaim
  rw [← he, hname, get?_apply] at hget
  cases hput : (byName (e.modified ++ e.added)).get? urn with
  | some c =>
      rw [hput, Option.some_or] at hget
      cases hget
      exact (mem_of_get?_byName hput).1
  | none =>
      -- The old claim would still stand there, with the address that it has now.
      rw [hput, Option.none_or] at hget
      split at hget
      · cases hget
      · exact absurd rfl (hurl claim hget)

/-- Whatever edits turn `old` into `new` delete a claim of each service that is gone. -/
theorem exists_deleted (he : e.apply old = new) (hold : old.get? urn = some claim)
    (hgone : new.get? urn = none) : ∃ c ∈ e.deleted, c.urn = urn := by
  rw [← he, get?_apply, Option.or_eq_none_iff] at hgone
  by_contra hnone
  rw [if_neg hnone, hold] at hgone
  cases hgone.2

theorem urn_of_mem_added (hnew : WellNamed new) (h : claim ∈ (between old new).added) :
    old.get? claim.urn = none := by
  obtain ⟨urn, hclaim, hnone⟩ := mem_added.mp h
  rw [hnew urn claim hclaim]
  exact hnone

theorem urn_of_mem_modified (hnew : WellNamed new) (h : claim ∈ (between old new).modified) :
    ∃ first, old.get? claim.urn = some first := by
  obtain ⟨urn, first, hfirst, hclaim, -⟩ := mem_modified.mp h
  rw [hnew urn claim hclaim]
  exact ⟨first, hfirst⟩

theorem urn_of_mem_deleted (hold : WellNamed old) (h : claim ∈ (between old new).deleted) :
    old.get? claim.urn = some claim ∧ new.get? claim.urn = none := by
  obtain ⟨urn, hclaim, hnone⟩ := mem_deleted.mp h
  rw [hold urn claim hclaim]
  exact ⟨hclaim, hnone⟩

theorem apart_of_entries (h : WellNamed claims) (p : String × Claim → Bool) :
    ((claims.entries.filter p).map (·.2)).Pairwise fun a b => a.urn ≠ b.urn := by
  rw [List.pairwise_map]
  apply List.Pairwise.imp_of_mem _ ((List.pairwise_map.mp claims.nodup_keys).filter p)
  intro a b ha hb hkeys
  rw [h a.1 a.2 (Dict.get?_eq_some_iff.mpr (List.mem_filter.mp ha).1),
    h b.1 b.2 (Dict.get?_eq_some_iff.mpr (List.mem_filter.mp hb).1)]
  exact hkeys

theorem apart_modified (hnew : WellNamed new) :
    (between old new).modified.Pairwise fun a b => a.urn ≠ b.urn := by
  apply List.Pairwise.filterMap _ _ (List.pairwise_map.mp old.nodup_keys)
  intro a b hkeys x hx y hy
  rw [hnew a.1 x (Option.filter_eq_some_iff.mp hx).1,
    hnew b.1 y (Option.filter_eq_some_iff.mp hy).1]
  exact hkeys

theorem nodup_urns (hold : WellNamed old) (hnew : WellNamed new) :
    (((between old new).added ++ (between old new).modified ++ (between old new).deleted).map
      (·.urn)).Nodup := by
  apply List.pairwise_map.mpr
  rw [List.pairwise_append, List.pairwise_append]
  refine ⟨⟨apart_of_entries hnew _, apart_modified hnew, ?_⟩, apart_of_entries hold _, ?_⟩
  · intro a ha b hb hurn
    obtain ⟨first, hfirst⟩ := urn_of_mem_modified hnew hb
    rw [← hurn, urn_of_mem_added hnew ha] at hfirst
    cases hfirst
  · intro a ha b hb hurn
    obtain ⟨hfirst, hnone⟩ := urn_of_mem_deleted hold hb
    rw [← hurn] at hfirst hnone
    rcases List.mem_append.mp ha with ha | ha
    · rw [urn_of_mem_added hnew ha] at hfirst
      cases hfirst
    · rw [get?_of_renews hnew (renews_iff.mpr (.inr ha))] at hnone
      cases hnone

theorem mem_added_of_fewer (he : e.apply old = new) (hnew : WellNamed new)
    (hmodified : e.modified ⊆ (between old new).modified) (h : claim ∈ (between old new).added) :
    claim ∈ e.added := by
  have hmem := mem_of_renews he hnew (renews_iff.mpr (.inl h))
  apply (List.mem_append.mp hmem).resolve_left
  intro hmod
  obtain ⟨first, hfirst⟩ := urn_of_mem_modified hnew (hmodified hmod)
  rw [urn_of_mem_added hnew h] at hfirst
  cases hfirst

theorem mem_modified_of_fewer (he : e.apply old = new) (hnew : WellNamed new)
    (hadded : e.added ⊆ (between old new).added) (h : claim ∈ (between old new).modified) :
    claim ∈ e.modified := by
  have hmem := mem_of_renews he hnew (renews_iff.mpr (.inr h))
  apply (List.mem_append.mp hmem).resolve_right
  intro hadd
  obtain ⟨first, hfirst⟩ := urn_of_mem_modified hnew h
  rw [urn_of_mem_added hnew (hadded hadd)] at hfirst
  cases hfirst

theorem mem_deleted_of_fewer (he : e.apply old = new) (hold : WellNamed old)
    (hdeleted : e.deleted ⊆ (between old new).deleted) (h : claim ∈ (between old new).deleted) :
    claim ∈ e.deleted := by
  obtain ⟨hfirst, hnone⟩ := urn_of_mem_deleted hold h
  obtain ⟨c, hc, hurn⟩ := exists_deleted he hfirst hnone
  have hsame := (urn_of_mem_deleted hold (hdeleted hc)).1
  rw [hurn, hfirst] at hsame
  cases hsame
  exact hc

theorem eq_of_sublist {α : Type} {xs ys : List α} (hsub : xs.Sublist ys) (hys : ys.Nodup)
    (h : ∀ y ∈ ys, y ∈ xs) : xs = ys :=
  hsub.eq_of_length_le (List.subperm_of_subset hys h).length_le

/-- Edits that turn `old` into `new`, of which no two are about one service and none can be left
out. -/
structure Transforms (old new : Claims) (e : ClaimEdits) : Prop where
  exact : e.apply old = new
  apart : ((e.added ++ e.modified ++ e.deleted).map (·.urn)).Nodup
  needed : ∀ fewer : ClaimEdits, fewer.added.Sublist e.added →
    fewer.modified.Sublist e.modified → fewer.deleted.Sublist e.deleted →
    fewer.apply old = new → fewer = e

theorem between_transforms (hold : WellNamed old) (hnew : WellNamed new) :
    Transforms old new (between old new) where
  exact := apply_between hold hnew
  apart := nodup_urns hold hnew
  needed := by
    intro fewer hadded hmodified hdeleted hfewer
    have hnodup : ((between old new).added ++ (between old new).modified ++
        (between old new).deleted).Nodup :=
      List.Nodup.of_map (fun c : Claim => c.urn) (nodup_urns hold hnew)
    rw [List.nodup_append, List.nodup_append] at hnodup
    obtain ⟨⟨hadds, hmods, -⟩, hdels, -⟩ := hnodup
    have hadded' := eq_of_sublist hadded hadds fun c =>
      mem_added_of_fewer hfewer hnew hmodified.subset
    have hmodified' := eq_of_sublist hmodified hmods fun c =>
      mem_modified_of_fewer hfewer hnew hadded.subset
    have hdeleted' := eq_of_sublist hdeleted hdels fun c =>
      mem_deleted_of_fewer hfewer hold hdeleted.subset
    cases fewer
    simp_all

end

end ClaimEdits

open ClaimEdits (WellNamed Transforms)

/-- The repositories whose entries in the catalog change. -/
def Diff.changed (d : Diff) : List Repo :=
  d.added ++ d.modified ++ d.deleted

def DistinctIds (rs : List Repo) : Prop :=
  rs.Pairwise fun a b => a.id ≠ 0 → a.id ≠ b.id

instance : DecidablePred DistinctIds := fun rs =>
  inferInstanceAs (Decidable (rs.Pairwise fun a b => a.id ≠ 0 → a.id ≠ b.id))

theorem DistinctIds.filter_eq {rs : List Repo} (h : DistinctIds rs) {r : Repo} (hr : r ∈ rs)
    (hid : r.id ≠ 0) : rs.filter (fun x => x.id == r.id) = [r] := by
  induction rs with
  | nil => cases hr
  | cons x rs ih =>
      obtain ⟨hx, hrest⟩ := List.pairwise_cons.mp h
      rcases List.mem_cons.mp hr with rfl | hr
      · rw [List.filter_cons_of_pos (by simp)]
        congr 1
        rw [List.filter_eq_nil_iff]
        intro y hy
        simpa using Ne.symm (hx y hy hid)
      · have hne : x.id ≠ r.id := fun heq => hx r hr (heq ▸ hid) heq
        rw [List.filter_cons_of_neg (by simpa using hne)]
        exact ih hrest hr

namespace MembershipEdits

/-- The edits that are listed for one repository. -/
def editsAt (m : MembershipEdits) (id : Int) : ClaimEdits :=
  ⟨claimsAt m.added id, claimsAt m.modified id, claimsAt m.deleted id⟩

/-- Carries the edits out on the claims of all repositories. -/
def apply (m : MembershipEdits) (claims : Int → Claims) (id : Int) : Claims :=
  (m.editsAt id).apply (claims id)

def claimsIn (rs : List Repo) (id : Int) : Claims :=
  (rs.find? (·.id == id)).elim ∅ (·.claims)

/-- A difference and what was stored before: each repository is told by its id, and what is
modified or deleted was stored. -/
structure Follows (d : Diff) (previous : List Repo) : Prop where
  ids : DistinctIds d.changed
  previousIds : DistinctIds previous
  named : ∀ r ∈ d.changed ++ previous, WellNamed r.claims
  stored : ∀ r ∈ d.modified ++ d.deleted, r.id ≠ 0 → ∃ old ∈ previous, old.id = r.id

section

variable {d : Diff} {previous : List Repo} {id : Int} {r : Repo}

theorem get?_known_of_mem (h : DistinctIds previous) (hr : r ∈ previous) (hid : r.id ≠ 0) :
    (known previous).get? r.id = some r := by
  apply Dict.get?_ofList_of_mem
  · apply List.mem_map_of_mem
    simpa using ⟨hr, hid⟩
  · intro b hb
    simp only [List.mem_map, List.mem_filter, Prod.mk.injEq] at hb
    obtain ⟨x, ⟨hx, -⟩, hxid, rfl⟩ := hb
    have hmem : x ∈ previous.filter fun y => y.id == r.id := by simp [hx, hxid]
    rw [h.filter_eq hr hid] at hmem
    exact List.mem_singleton.mp hmem

theorem claimsIn_of_mem (h : DistinctIds previous) (hr : r ∈ previous) (hid : r.id ≠ 0) :
    claimsIn previous r.id = r.claims := by
  rw [claimsIn, ← List.head?_filter, h.filter_eq hr hid]
  rfl

theorem claimsIn_of_absent (h : ∀ r ∈ previous, r.id ≠ id) : claimsIn previous id = ∅ := by
  have hnone : previous.find? (·.id == id) = none := by
    rw [List.find?_eq_none]
    simpa using h
  rw [claimsIn, hnone]
  rfl

theorem get?_known_of_absent (h : ∀ r ∈ previous, r.id ≠ id) : (known previous).get? id = none := by
  apply Dict.get?_ofList_eq_none_iff.mpr
  intro e he
  obtain ⟨x, hx, rfl⟩ := List.mem_map.mp he
  exact h x (List.mem_filter.mp hx).1

theorem known_elim_eq (h : DistinctIds previous) (hid : id ≠ 0) :
    ((known previous).get? id).elim ∅ (·.claims) = claimsIn previous id := by
  by_cases hr : ∃ r ∈ previous, r.id = id
  · obtain ⟨r, hr, rfl⟩ := hr
    rw [get?_known_of_mem h hr hid, claimsIn_of_mem h hr hid]
    rfl
  · have habsent : ∀ r ∈ previous, r.id ≠ id := fun r hr' heq => hr ⟨r, hr', heq⟩
    rw [get?_known_of_absent habsent, claimsIn_of_absent habsent]
    rfl

theorem claimsAt_ofDiff_changed (k : Aspect) (h : Follows d previous) (hid : id ≠ 0) :
    claimsAt (k.listed (ofDiff d previous)) id =
      (d.changed.filter fun r => r.id == id).flatMap fun r =>
        k.part (.between (claimsIn previous id) r.claims) := by
  have hadded : (d.added.filter fun r => r.id == id).flatMap (fun r =>
        k.part (.between (((known previous).get? id).elim ∅ (·.claims)) r.claims)) =
      (d.added.filter fun r => r.id == id).flatMap fun r =>
        k.part (.between (claimsIn previous id) r.claims) := by
    rw [known_elim_eq h.previousIds hid]
  have hothers : ((d.modified ++ d.deleted).filter fun r => r.id == id).flatMap (fun r =>
        ((known previous).get? id).elim [] fun old => k.part (.between old.claims r.claims)) =
      ((d.modified ++ d.deleted).filter fun r => r.id == id).flatMap fun r =>
        k.part (.between (claimsIn previous id) r.claims) := by
    apply List.flatMap_congr
    intro r hr
    obtain ⟨hmem, hrid⟩ := List.mem_filter.mp hr
    obtain rfl : r.id = id := by simpa using hrid
    obtain ⟨old, hold, hoid⟩ := h.stored r hmem hid
    rw [← hoid] at hid ⊢
    rw [get?_known_of_mem h.previousIds hold hid, claimsIn_of_mem h.previousIds hold hid]
    rfl
  rw [claimsAt_ofDiff k d previous hid, hadded, hothers, ← List.flatMap_append,
    ← List.filter_append, ← List.append_assoc]
  rfl

theorem editsAt_of_mem (h : Follows d previous) (hr : r ∈ d.changed) (hid : r.id ≠ 0) :
    (ofDiff d previous).editsAt r.id = .between (claimsIn previous r.id) r.claims := by
  have hat : ∀ k : Aspect, claimsAt (k.listed (ofDiff d previous)) r.id =
      k.part (.between (claimsIn previous r.id) r.claims) := by
    intro k
    rw [claimsAt_ofDiff_changed k h hid, h.ids.filter_eq hr hid, List.flatMap_singleton]
  exact congr (congrArg₂ ClaimEdits.mk (hat .additions) (hat .changes)) (hat .deletions)

theorem editsAt_of_absent (h : Follows d previous) (habsent : ∀ r ∈ d.changed, r.id ≠ 0 → r.id ≠ id) :
    (ofDiff d previous).editsAt id = ⟨[], [], []⟩ := by
  have hat : ∀ k : Aspect, claimsAt (k.listed (ofDiff d previous)) id = [] := by
    intro k
    by_cases hid : id = 0
    · rw [hid]
      exact claimsAt_ofDiff_zero k d previous
    · have hnil : d.changed.filter (fun r => r.id == id) = [] := by
        rw [List.filter_eq_nil_iff]
        intro r hr heq
        obtain rfl : r.id = id := by simpa using heq
        exact habsent r hr hid rfl
      rw [claimsAt_ofDiff_changed k h hid, hnil, List.flatMap_nil]
  exact congr (congrArg₂ ClaimEdits.mk (hat .additions) (hat .changes)) (hat .deletions)

theorem wellNamed_claimsIn (h : ∀ r ∈ previous, WellNamed r.claims) (id : Int) :
    WellNamed (claimsIn previous id) := by
  intro urn claim hget
  cases hfind : previous.find? (·.id == id) with
  | none =>
      rw [claimsIn, hfind] at hget
      cases hget
  | some r =>
      rw [claimsIn, hfind] at hget
      exact h r (List.mem_of_find?_eq_some hfind) urn claim hget

end

/-- The edits between two sets of claims turn the first into the second, one for each service at
most and none too many; and those of a difference turn the claims on what it changes into those
that it gives, and leave the claims on all other repositories alone. -/
theorem edits_exact :
    (∀ {old new : Claims}, WellNamed old → WellNamed new → Transforms old new (.between old new)) ∧
    ∀ {d : Diff} {previous : List Repo}, Follows d previous →
      (∀ r ∈ d.changed, r.id ≠ 0 →
        (ofDiff d previous).apply (claimsIn previous) r.id = r.claims) ∧
      ∀ id, (∀ r ∈ d.changed, r.id ≠ 0 → r.id ≠ id) →
        (ofDiff d previous).apply (claimsIn previous) id = claimsIn previous id := by
  refine ⟨ClaimEdits.between_transforms, ?_⟩
  intro d previous h
  constructor
  · intro r hr hid
    rw [apply, editsAt_of_mem h hr hid]
    apply ClaimEdits.apply_between
    · apply wellNamed_claimsIn
      exact fun old hold => h.named old (List.mem_append_right _ hold)
    · exact h.named r (List.mem_append_left _ hr)
  · intro id habsent
    rw [apply, editsAt_of_absent h habsent]
    rfl

/-- One claim moves, one goes and one comes, on a repository that is modified; one that is added has
no stored state, and one without an id is passed over. -/
theorem edits_exact_moved :
    let old : Claims := .ofList [("a", ⟨"a", "1"⟩), ("b", ⟨"b", "1"⟩)]
    let new : Claims := .ofList [("a", ⟨"a", "2"⟩), ("c", ⟨"c", "1"⟩)]
    let previous := [{ Repo.blank with id := 1, claims := old },
      { Repo.blank with id := 2, claims := new }]
    let d : Diff := { Diff.empty with
      added := [{ Repo.blank with id := 3, claims := old }, { Repo.blank with claims := new }]
      modified := [{ Repo.blank with id := 1, claims := new }] }
    let edited := (ofDiff d previous).apply (claimsIn previous)
    (WellNamed old ∧ WellNamed new ∧ Transforms old new (.between old new)) ∧
      Follows d previous ∧ edited 1 = new ∧ edited 2 = new ∧ edited 3 = old := by
  intro old new previous d edited
  have hold : WellNamed old := by decide
  have hnew : WellNamed new := by decide
  have hd : Follows d previous := by
    constructor
    case ids => decide
    case previousIds => decide
    case named => decide
    case stored => decide
  obtain ⟨hchanged, hother⟩ := edits_exact.2 hd
  refine ⟨⟨hold, hnew, edits_exact.1 hold hnew⟩, hd, ?_, ?_, ?_⟩
  · exact hchanged { Repo.blank with id := 1, claims := new } (by decide) (by decide)
  · exact hother 2 (by decide)
  · exact hchanged { Repo.blank with id := 3, claims := old } (by decide) (by decide)

end MembershipEdits

end RepoCatalog
