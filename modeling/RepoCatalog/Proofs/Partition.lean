import RepoCatalog.Proofs.Reach
import RepoCatalog.Proofs.Survivors

/-!
# What a comparison does with each repository

Each stored repository gives one entry, which keeps its id and its identity: it is deleted if its
identity does not survive, and otherwise modified or left as it is. What survives and is not stored
is added.
-/
namespace RepoCatalog

open Repo (Survives)

/-- What an entry has of its stored repository in any case. -/
def Repo.label (r : Repo) : Int × Spec :=
  (r.id, r.spec)

namespace Diff

/-- The entries for stored repositories: one for each of them, under its id and identity, and each
list in the order in which they are stored. -/
structure Entered (stored : List Repo) (d : Diff) : Prop where
  every : ((d.deleted ++ d.modified ++ d.unmodified).map Repo.label).Perm (stored.map Repo.label)
  deleted : (d.deleted.map Repo.label).Sublist (stored.map Repo.label)
  modified : (d.modified.map Repo.label).Sublist (stored.map Repo.label)
  unmodified : (d.unmodified.map Repo.label).Sublist (stored.map Repo.label)

section

variable {stored rest : List Repo} {d : Diff} {old x : Repo}

theorem Entered.cons_deleted (h : Entered rest d) (hx : x.label = old.label) :
    Entered (old :: rest) { d with deleted := x :: d.deleted } where
  every := by
    simpa only [List.map_cons, List.cons_append, hx] using h.every.cons old.label
  deleted := by
    simpa only [List.map_cons, hx] using h.deleted.cons_cons old.label
  modified := h.modified.cons old.label
  unmodified := h.unmodified.cons old.label

theorem Entered.cons_modified (h : Entered rest d) (hx : x.label = old.label) :
    Entered (old :: rest) { d with modified := x :: d.modified } where
  every := by
    rw [List.map_cons, ← hx]
    apply List.Perm.trans _ (h.every.cons x.label)
    simp only [List.map_append, List.map_cons, List.append_assoc, List.cons_append]
    exact List.perm_middle
  deleted := h.deleted.cons old.label
  modified := by
    simpa only [List.map_cons, hx] using h.modified.cons_cons old.label
  unmodified := h.unmodified.cons old.label

theorem Entered.cons_unmodified (h : Entered rest d) :
    Entered (old :: rest) { d with unmodified := old :: d.unmodified } where
  every := by
    rw [List.map_cons]
    apply List.Perm.trans _ (h.every.cons old.label)
    simp only [List.map_append, List.map_cons]
    exact List.perm_middle
  deleted := h.deleted.cons old.label
  modified := h.modified.cons old.label
  unmodified := h.unmodified.cons_cons old.label

theorem label_withdrawn (scope : Option String) (r : Repo) :
    (withdrawn scope r).label = r.label := by
  rw [withdrawn_eq]
  rfl

theorem label_revised {a n : Repo} (h : n.spec = a.spec) : (a.revised n).label = a.label :=
  Prod.ext rfl (Repo.spec_revised h)

theorem entered_settle (scope : Option String) {survivors : Dict Spec Repo} (losers : List Spec)
    (stored : List Repo) (hkeyed : Keyed survivors) :
    Entered stored (settle scope survivors losers stored) := by
  induction stored generalizing survivors losers with
  | nil => exact ⟨.nil, .slnil, .slnil, .slnil⟩
  | cons old rest ih =>
      unfold settle
      cases hget : survivors.get? old.spec with
      | none =>
          simp only []
          split
          · exact (ih _ hkeyed).cons_deleted rfl
          · exact (ih _ hkeyed).cons_deleted (label_withdrawn scope old)
      | some listed =>
          have hrest := ih losers (keyed_erase hkeyed old.spec)
          simp only []
          split
          · exact hrest.cons_modified (label_revised (hkeyed _ _ hget))
          · exact hrest.cons_unmodified

theorem entered_between (scope : Option String) (sourced stored : List Repo) :
    Entered stored (between scope sourced stored) := by
  apply entered_settle
  exact keyed_survivorsOf sourced

theorem Entered.specs (h : Entered stored d) :
    ((d.deleted ++ d.modified ++ d.unmodified).map (·.spec)).Perm (stored.map (·.spec)) := by
  have hspecs := h.every.map Prod.snd
  rwa [List.map_map, List.map_map] at hspecs

end

section

variable {scope : Option String} {survivors : Dict Spec Repo} {losers : List Spec}
  {sourced stored : List Repo} {old x : Repo}

theorem label_of_departure (h : departure scope survivors losers old = some x) :
    x.label = old.label := by
  rw [claims_of_departure h]
  rfl

theorem mem_deleted_iff (hstored : stored.Pairwise fun a b => a.spec ≠ b.spec) :
    x ∈ (between scope sourced stored).deleted ↔
      ∃ old ∈ stored, departure scope (survivorsOf sourced) (losersOf sourced) old = some x := by
  rw [between_eq scope sourced hstored]
  exact List.mem_filterMap

theorem label_mem_deleted_iff (hstored : stored.Pairwise fun a b => a.spec ≠ b.spec)
    (hold : old ∈ stored) : old.label ∈ (between scope sourced stored).deleted.map Repo.label ↔
      ∀ r : Repo, r.Survives sourced → r.spec ≠ old.spec := by
  rw [← get?_survivorsOf_eq_none_iff, List.mem_map]
  constructor
  · rintro ⟨x, hx, hlabel⟩
    obtain ⟨old', hold', hgone⟩ := (mem_deleted_iff hstored).mp hx
    have hspec : old'.spec = old.spec :=
      congrArg Prod.snd ((label_of_departure hgone).symm.trans hlabel)
    rw [← hspec]
    exact (departure_eq_some_iff.mp hgone).1
  · intro hnone
    obtain ⟨x, hgone, -⟩ := exists_departure scope (losersOf sourced) hnone
    exact ⟨x, (mem_deleted_iff hstored).mpr ⟨old, hold, hgone⟩, label_of_departure hgone⟩

/-- A deleted repository has lost all its claims if its identity is listed, and otherwise those
within the scope. -/
theorem stripped_of_mem_deleted (hstored : stored.Pairwise fun a b => a.spec ≠ b.spec)
    (hx : x ∈ (between scope sourced stored).deleted) :
    ∃ old ∈ stored, x = { old with claims :=
      if ∃ r ∈ sourced, r.spec = old.spec then ∅ else scope.elim ∅ old.claims.erase } := by
  obtain ⟨old, hold, hgone⟩ := (mem_deleted_iff hstored).mp hx
  obtain ⟨hnone, rfl⟩ := departure_eq_some_iff.mp hgone
  refine ⟨old, hold, ?_⟩
  have hlost : old.spec ∈ losersOf sourced ↔ ∃ r ∈ sourced, r.spec = old.spec := by
    rw [mem_losersOf_iff, and_iff_left hnone]
  by_cases hlisted : ∃ r ∈ sourced, r.spec = old.spec
  · rw [if_pos (hlost.mpr hlisted), if_pos hlisted]
    rfl
  · rw [if_neg (mt hlost.mp hlisted), if_neg hlisted, withdrawn_eq]

theorem spec_mem_added_iff (hstored : stored.Pairwise fun a b => a.spec ≠ b.spec) {spec : Spec} :
    spec ∈ (between scope sourced stored).added.map (·.spec) ↔
      (∃ r : Repo, r.Survives sourced ∧ r.spec = spec) ∧ ∀ old ∈ stored, old.spec ≠ spec := by
  have hkeyed := keyed_arrivals (keyed_survivorsOf sourced) stored
  rw [between_eq scope sourced hstored]
  constructor
  · intro h
    obtain ⟨x, hx, rfl⟩ := List.mem_map.mp h
    obtain ⟨spec, hget⟩ := Dict.mem_values.mp hx
    obtain rfl := hkeyed _ _ hget
    rw [get?_arrivals] at hget
    split at hget
    case isTrue => cases hget
    case isFalse hnew =>
      obtain ⟨s, hs, hspec, -⟩ := survives_of_get? hget
      exact ⟨⟨s, hs, hspec⟩, fun old hold heq => hnew ⟨old, hold, heq⟩⟩
  · rintro ⟨⟨s, hs, rfl⟩, hnew⟩
    obtain ⟨m, hm⟩ := get?_of_survives hs
    have hget : (arrivals (survivorsOf sourced) stored).get? s.spec = some m := by
      rw [get?_arrivals, if_neg, hm]
      rintro ⟨old, hold, heq⟩
      exact hnew old hold heq
    exact List.mem_map.mpr ⟨m, Dict.mem_values.mpr ⟨s.spec, hget⟩, hkeyed _ _ hget⟩

end

/-- A difference that divides what is stored and what survives of a listing. -/
structure Divides (scope : Option String) (sourced stored : List Repo) (d : Diff) : Prop
    extends Entered stored d where
  distinct : (d.repos.map (·.spec)).Nodup
  gone : ∀ old ∈ stored, (old.label ∈ d.deleted.map Repo.label ↔
    ∀ r : Repo, r.Survives sourced → r.spec ≠ old.spec)
  stripped : ∀ x ∈ d.deleted, ∃ old ∈ stored, x = { old with claims :=
    if ∃ r ∈ sourced, r.spec = old.spec then ∅ else scope.elim ∅ old.claims.erase }
  ordered : d.added.Pairwise fun a b => a.spec < b.spec
  fresh : ∀ spec, spec ∈ d.added.map (·.spec) ↔
    (∃ r : Repo, r.Survives sourced ∧ r.spec = spec) ∧ ∀ old ∈ stored, old.spec ≠ spec

theorem nodup_repos (scope : Option String) (sourced : List Repo) {stored : List Repo}
    (hstored : stored.Pairwise fun a b => a.spec ≠ b.spec) :
    ((between scope sourced stored).repos.map (·.spec)).Nodup := by
  have hspecs := (entered_between scope sourced stored).specs
  unfold repos
  rw [List.append_assoc] at hspecs
  rw [List.append_assoc, List.append_assoc, List.map_append, List.nodup_append]
  refine ⟨?_, ?_, ?_⟩
  · exact List.pairwise_map.mpr (pairwise_added scope sourced hstored)
  · exact hspecs.nodup_iff.mpr (List.pairwise_map.mpr hstored)
  · rintro spec hnew _ hentry rfl
    obtain ⟨old, hold, hspec⟩ := List.mem_map.mp (hspecs.mem_iff.mp hentry)
    exact ((spec_mem_added_iff hstored).mp hnew).2 old hold hspec

/-- A comparison with stored repositories of different identities divides them and the listing. -/
theorem between_divides (scope : Option String) (sourced : List Repo) {stored : List Repo}
    (hstored : stored.Pairwise fun a b => a.spec ≠ b.spec) :
    Divides scope sourced stored (between scope sourced stored) where
  toEntered := entered_between scope sourced stored
  distinct := nodup_repos scope sourced hstored
  gone _ hold := label_mem_deleted_iff hstored hold
  stripped _ hx := stripped_of_mem_deleted hstored hx
  ordered := ordered_added scope sourced hstored
  fresh _ := spec_mem_added_iff hstored

open Sample in
/-- Of two stored repositories one loses its name to a smaller identity, and one is not listed. -/
theorem between_divides_homonyms :
    [entry "2" "alpha", entry "3" "beta"].Pairwise (fun a b => a.spec ≠ b.spec) ∧
      Divides (some hub.urn) [entry "2" "alpha", entry "1" "Alpha"]
        [entry "2" "alpha", entry "3" "beta"]
        (between (some hub.urn) [entry "2" "alpha", entry "1" "Alpha"]
          [entry "2" "alpha", entry "3" "beta"]) := by
  have hstored : [entry "2" "alpha", entry "3" "beta"].Pairwise fun a b => a.spec ≠ b.spec := by
    decide +kernel
  exact ⟨hstored, between_divides _ _ hstored⟩

end Diff

end RepoCatalog
