import Mathlib.Data.List.Nodup
import RepoCatalog.Proofs.Earliest

/-!
# What a comparison keeps

The added, the modified and the unmodified repositories are what the catalog holds after a pass.
There is one for each name that is listed: that of the smallest identity, with the attributes of
its entry that counts and the claims of all its entries.
-/
namespace RepoCatalog

open Repo (Earliest Counts)

namespace Repo

/-- What a repository takes over from an entry of its identity. -/
structure Agrees (x r : Repo) : Prop where
  spec : x.spec = r.spec
  name : x.name = r.name
  uri : x.uri = r.uri
  description : x.description = r.description
  isFork : x.isFork = r.isFork
  isArchived : x.isArchived = r.isArchived
  isPrivate : x.isPrivate = r.isPrivate

theorem Agrees.lowerName {x r : Repo} (h : x.Agrees r) : x.lowerName = r.lowerName :=
  congrArg Text.lowerCase h.name

theorem Same.refl (r : Repo) : r.Same r :=
  ⟨rfl, rfl, rfl, rfl, rfl, rfl, fun _ => rfl, rfl, fun hlive => hlive⟩

theorem same_revised (a n : Repo) : (a.revised n).Same n where
  name := rfl
  uri := rfl
  description := rfl
  isFork := rfl
  isArchived := rfl
  isPrivate := rfl
  spec hspec := by simp only [revised, hspec, Bool.false_eq_true, if_false]
  claims := rfl
  live hlive := by simp only [revised, hlive, Option.isNone_none, if_true]

end Repo

namespace Diff

/-- What is in the catalog after the changes of a difference are made. -/
def remaining (d : Diff) : List Repo :=
  d.added ++ d.modified ++ d.unmodified

theorem remaining_modified_perm (d : Diff) (x : Repo) :
    (remaining { d with modified := x :: d.modified }).Perm (x :: remaining d) := by
  unfold remaining
  simpa only [List.append_assoc, List.cons_append] using List.perm_middle

theorem remaining_unmodified_perm (d : Diff) (x : Repo) :
    (remaining { d with unmodified := x :: d.unmodified }).Perm (x :: remaining d) :=
  List.perm_middle

/-- The repositories of `rs` are the survivors, one for each, up to ids and times. -/
structure Realizes (survivors : Dict Spec Repo) (rs : List Repo) : Prop where
  specs : (rs.map (·.spec)).Nodup
  same : ∀ x ∈ rs, ∃ r, survivors.get? x.spec = some r ∧ x.Same r
  every : ∀ spec r, survivors.get? spec = some r → ∃ x ∈ rs, x.spec = spec

section

variable {survivors : Dict Spec Repo} {rs rs' : List Repo} {x r : Repo}

theorem Realizes.perm (h : Realizes survivors rs) (hperm : rs'.Perm rs) :
    Realizes survivors rs' where
  specs := (hperm.map _).nodup_iff.mpr h.specs
  same x hx := h.same x (hperm.mem_iff.mp hx)
  every spec r hget := by
    obtain ⟨x, hx, hspec⟩ := h.every spec r hget
    exact ⟨x, hperm.mem_iff.mpr hx, hspec⟩

theorem Realizes.cons {spec : Spec} (h : Realizes (survivors.erase spec) rs)
    (hget : survivors.get? spec = some r) (hspec : x.spec = spec) (hsame : x.Same r) :
    Realizes survivors (x :: rs) := by
  subst hspec
  constructor
  case specs =>
    rw [List.map_cons, List.nodup_cons]
    refine ⟨?_, h.specs⟩
    intro hmem
    obtain ⟨y, hy, hspec⟩ := List.mem_map.mp hmem
    obtain ⟨s, hs, -⟩ := h.same y hy
    exact (Dict.get?_erase_eq_some_iff.mp hs).1 hspec
  case same =>
    intro y hy
    rcases List.mem_cons.mp hy with rfl | hy
    · exact ⟨r, hget, hsame⟩
    · obtain ⟨s, hs, hyes⟩ := h.same y hy
      exact ⟨s, (Dict.get?_erase_eq_some_iff.mp hs).2, hyes⟩
  case every =>
    intro spec s hs
    by_cases hspec : spec = x.spec
    · exact ⟨x, List.mem_cons_self, hspec.symm⟩
    · obtain ⟨y, hy, heq⟩ := h.every spec s (Dict.get?_erase_eq_some_iff.mpr ⟨hspec, hs⟩)
      exact ⟨y, List.mem_cons_of_mem x hy, heq⟩

theorem realizes_values (hkeyed : Keyed survivors) :
    Realizes survivors survivors.values where
  specs := by
    apply List.pairwise_map.mpr
    exact (pairwise_values hkeyed).imp Spec.ne_of_lt
  same x hx := by
    obtain ⟨spec, hget⟩ := Dict.mem_values.mp hx
    rw [hkeyed spec x hget]
    exact ⟨x, hget, .refl x⟩
  every spec r hget := ⟨r, Dict.mem_values.mpr ⟨spec, hget⟩, hkeyed spec r hget⟩

theorem keyed_erase (hkeyed : Keyed survivors) (spec : Spec) : Keyed (survivors.erase spec) :=
  fun spec r hget => hkeyed spec r (Dict.get?_erase_eq_some_iff.mp hget).2

/-- Settling leaves one repository for each survivor, whatever is stored. -/
theorem realizes_settle (scope : Option String) (losers : List Spec) (stored : List Repo)
    (hkeyed : Keyed survivors) :
    Realizes survivors (settle scope survivors losers stored).remaining := by
  induction stored generalizing survivors losers with
  | nil =>
      have hvalues : (settle scope survivors losers []).remaining = survivors.values := by
        simp [settle, remaining, empty]
      rw [hvalues]
      exact realizes_values hkeyed
  | cons old rest ih =>
      unfold settle
      cases hget : survivors.get? old.spec with
      | none =>
          simp only []
          split
          · exact ih _ hkeyed
          · exact ih _ hkeyed
      | some listed =>
          have hspec := hkeyed _ _ hget
          -- The survivor is used up, so that a second row of its identity finds nothing.
          have hrest := ih losers (keyed_erase hkeyed old.spec)
          simp only []
          split
          case isTrue hdiffers =>
            have hcons := hrest.cons hget (Repo.spec_revised hspec) (Repo.same_revised old listed)
            exact hcons.perm (remaining_modified_perm _ _)
          case isFalse hdiffers =>
            have hsame := Repo.same_of_differs (Bool.eq_false_iff.mpr hdiffers)
            exact (hrest.cons hget rfl hsame).perm (remaining_unmodified_perm _ _)

end

variable {sourced rs : List Repo} {x y r : Repo}

theorem Realizes.survives (h : Realizes (survivorsOf sourced) rs) (hx : x ∈ rs) :
    ∃ s : Repo, s.Survives sourced ∧ x.Agrees s := by
  obtain ⟨m, hm, hsame⟩ := h.same x hx
  obtain ⟨s, hs, hspec, heq⟩ := survives_of_get? hm
  rw [heq] at hsame
  exact ⟨s, hs, hspec.symm, hsame.name, hsame.uri, hsame.description, hsame.isFork,
    hsame.isArchived, hsame.isPrivate⟩

theorem Realizes.claim (h : Realizes (survivorsOf sourced) rs) (hx : x ∈ rs) {urn : String}
    {claim : Claim} : x.claims.get? urn = some claim ↔
      ∃ y, Earliest (fun y => y.spec = x.spec ∧ (y.claims.get? urn).isSome = true) sourced y ∧
        y.claims.get? urn = some claim := by
  obtain ⟨m, hm, hsame⟩ := h.same x hx
  rw [hsame.claims]
  exact claim_of_merged (get?_survivorsOf.mp hm).1

theorem Realizes.eq_of_name (h : Realizes (survivorsOf sourced) rs) (hx : x ∈ rs) (hy : y ∈ rs)
    (hname : x.lowerName = y.lowerName) : x = y := by
  obtain ⟨s, hs, hxs⟩ := h.survives hx
  obtain ⟨t, ht, hyt⟩ := h.survives hy
  have hst : s = t := hs.eq_of_name ht (by rw [← hxs.lowerName, hname, hyt.lowerName])
  apply List.inj_on_of_nodup_map h.specs hx hy
  rw [hxs.spec, hst, hyt.spec]

theorem Realizes.exists_of_counts (h : Realizes (survivorsOf sourced) rs) (hr : r.Counts sourced) :
    ∃ x ∈ rs, x.lowerName = r.lowerName := by
  obtain ⟨s, hs, hname⟩ := hr.exists_survives
  obtain ⟨m, hm⟩ := get?_of_survives hs
  obtain ⟨x, hx, hspec⟩ := h.every _ m hm
  obtain ⟨t, ht, hxt⟩ := h.survives hx
  have hst : t = s := ht.counts.eq_of_spec hs.counts (by rw [← hxt.spec, hspec])
  exact ⟨x, hx, by rw [hxt.lowerName, hst, hname]⟩

/-- One repository for each name that an entry of a listing that counts has: that of the smallest
identity, as its entry that counts describes it, and with every claim that some entry of its
identity has, of which the earliest entry with a claim of that service decides. -/
structure Represents (sourced rs : List Repo) : Prop where
  specs : (rs.map (·.spec)).Nodup
  names : (rs.map Repo.lowerName).Nodup
  one : ∀ r : Repo, r.Counts sourced → ∃! x, x ∈ rs ∧ x.lowerName = r.lowerName
  smallest : ∀ x ∈ rs, ∀ r : Repo, r.Counts sourced → r.lowerName = x.lowerName →
    ¬r.spec < x.spec
  agrees : ∀ x ∈ rs, ∃ r : Repo, r.Counts sourced ∧ x.Agrees r
  claims : ∀ x ∈ rs, ∀ urn claim, x.claims.get? urn = some claim ↔
    ∃ y, Earliest (fun y => y.spec = x.spec ∧ (y.claims.get? urn).isSome = true) sourced y ∧
      y.claims.get? urn = some claim

/-- What remains represents the listing, whatever is stored. -/
theorem remaining_represents (scope : Option String) (sourced stored : List Repo) :
    Represents sourced (between scope sourced stored).remaining := by
  have h : Realizes (survivorsOf sourced) (between scope sourced stored).remaining := by
    apply realizes_settle
    exact keyed_survivorsOf sourced
  constructor
  case specs => exact h.specs
  case names =>
    apply List.Nodup.map_on _ h.specs.of_map
    intro x hx y hy hname
    exact h.eq_of_name hx hy hname
  case one =>
    intro r hr
    obtain ⟨x, hx, hname⟩ := h.exists_of_counts hr
    refine ⟨x, ⟨hx, hname⟩, ?_⟩
    rintro y ⟨hy, hsame⟩
    exact h.eq_of_name hy hx (hsame.trans hname.symm)
  case smallest =>
    intro x hx r hr hname
    obtain ⟨s, hs, hagrees⟩ := h.survives hx
    rw [hagrees.spec]
    exact hs.foremost r hr (hname.trans hagrees.lowerName)
  case agrees =>
    intro x hx
    obtain ⟨s, hs, hagrees⟩ := h.survives hx
    exact ⟨s, hs.counts, hagrees⟩
  case claims =>
    intro x hx urn claim
    exact h.claim hx

end Diff

end RepoCatalog
