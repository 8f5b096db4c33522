import RepoCatalog.Proofs.Survivors

/-!
# Comparing again

A comparison leaves a list of repositories as it is if and only if the list realizes what survives
of the listing. What remains after a comparison does so, whatever was stored before.
-/
namespace RepoCatalog

namespace Diff

section

variable {scope : Option String} {survivors : Dict Spec Repo} {losers : List Spec}
  {rs : List Repo} {x : Repo}

theorem Realizes.arrivals_eq (h : Realizes survivors rs) : arrivals survivors rs = ∅ := by
  apply Dict.ext_get?
  intro spec
  rw [get?_arrivals, Dict.get?_empty]
  cases hget : survivors.get? spec with
  | none => exact ite_self _
  | some r => exact if_pos (h.every spec r hget)

theorem Realizes.stays_eq (h : Realizes survivors rs) (hx : x ∈ rs) : stays survivors x = true := by
  obtain ⟨r, hget, hsame⟩ := h.same x hx
  simp [stays, hget, hsame.differs]

theorem Realizes.revision_eq (h : Realizes survivors rs) (hx : x ∈ rs) :
    revision survivors x = none := by
  obtain ⟨r, hget, hsame⟩ := h.same x hx
  simp [revision, hget, hsame.differs]

theorem Realizes.departure_eq (h : Realizes survivors rs) (hx : x ∈ rs) :
    departure scope survivors losers x = none := by
  obtain ⟨r, hget, -⟩ := h.same x hx
  simp [departure, hget]

theorem Realizes.settled_eq (h : Realizes survivors rs) :
    settled scope survivors losers rs = { empty with unmodified := rs } := by
  have hdeleted : rs.filterMap (departure scope survivors losers) = [] := by
    rw [List.filterMap_eq_nil_iff]
    exact fun x hx => h.departure_eq hx
  have hmodified : rs.filterMap (revision survivors) = [] := by
    rw [List.filterMap_eq_nil_iff]
    exact fun x hx => h.revision_eq hx
  have hunmodified : rs.filter (stays survivors) = rs := by
    rw [List.filter_eq_self]
    exact fun x hx => h.stays_eq hx
  simp only [settled, h.arrivals_eq, hdeleted, hmodified, hunmodified]
  rfl

end

theorem realizes_between (scope : Option String) (sourced stored : List Repo) :
    Realizes (survivorsOf sourced) (between scope sourced stored).remaining := by
  apply realizes_settle
  exact keyed_survivorsOf sourced

/-- A comparison finds nothing to do if and only if what is stored realizes the survivors of the
listing. -/
theorem between_eq_self_iff {scope : Option String} {sourced rs : List Repo} :
    between scope sourced rs = { empty with unmodified := rs } ↔
      Realizes (survivorsOf sourced) rs := by
  constructor
  · intro h
    have hrealizes := realizes_between scope sourced rs
    rw [h] at hrealizes
    exact hrealizes
  · intro h
    rw [between_eq scope sourced (List.pairwise_map.mp h.specs), h.settled_eq]

/-- Comparing a listing again, with what remained after the first comparison, leaves everything as
it is. -/
theorem between_remaining (scope : Option String) (sourced stored : List Repo) :
    between scope sourced (between scope sourced stored).remaining =
      { empty with unmodified := (between scope sourced stored).remaining } := by
  apply between_eq_self_iff.mpr
  exact realizes_between scope sourced stored

end Diff

end RepoCatalog
