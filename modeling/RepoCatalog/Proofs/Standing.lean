import RepoCatalog.Proofs.Obstacle
import RepoCatalog.Proofs.Single

/-!
# What a batch leaves standing

After a batch, each live row that its service holds or lists stands for a leading entry of the
listing. A row that is not listed and that another service holds too stands as it was, unless the
service did not hold it and a leading entry of a smaller identity has its name.
-/
namespace RepoCatalog

namespace Catalog

variable {c d e : Catalog} {svc : Service} {r : Repo} {j : Int}

theorem Stands.not_news (h : e.Stands svc r j) (hkind : e.kindOf? svc.id = some svc.kind)
    (hlisted : r.ListedBy svc) {row : RepoRow} (hrow : e.repos.get? j = some row) :
    Syncer.isNews (e.view (j, row)) r = false := by
  obtain ⟨row', m, hrow', hlive, hm, hface⟩ := h
  cases hrow.symm.trans hrow'
  obtain ⟨claim, hclaim, hsame⟩ := Option.map_eq_some_iff.mp hface
  have hdate : row.deletedAt = none := Option.isNone_iff_eq_none.mp hlive
  have hshows : e.Shows (e.view (j, row)) := ⟨row, hrow, hlive, rfl⟩
  have hurl : claim.cloneUrl = m.cloneUrl := congrArg Face.cloneUrl hsame
  obtain ⟨url, hsolo⟩ := hlisted.claims
  have hown : claim = ⟨svc.urn, url⟩ := by
    rw [hsolo, Claims.get?_solo, if_pos rfl, Option.some_inj] at hclaim
    exact hclaim.symm
  have hclaims : (e.view (j, row)).claims = r.claims.union (e.view (j, row)).claims := by
    refine Dict.ext_get? fun urn => ?_
    rw [Dict.get?_union, hsolo, Claims.get?_solo]
    by_cases hurn : urn = svc.urn
    · rw [if_pos hurn, hurn, Option.some_or]
      refine hshows.get?_claims.mpr ⟨svc.id, m, svc.kind, hm, hkind, rfl, ?_⟩
      rw [← hurl, hown]
    · rw [if_neg hurn, Option.none_or]
  have hspec : row.spec = r.spec := (congrArg Face.spec hsame).symm
  exact Repo.Same.differs
    ⟨(congrArg Face.name hsame).symm, (congrArg Face.uri hsame).symm,
      (congrArg Face.description hsame).symm, (congrArg Face.isFork hsame).symm,
      (congrArg Face.isArchived hsame).symm, (congrArg Face.isPrivate hsame).symm,
      fun _ => hspec, hclaims, fun _ => hdate⟩

theorem stands_of_not_news (hsvc : c.Holds svc) (hlisted : r.ListedBy svc) {row : RepoRow}
    (hrow : c.repos.get? j = some row) (hlive : row.isLive = true) (hspec : r.spec = row.spec)
    (h : Syncer.isNews (c.view (j, row)) r = false) : c.Stands svc r j := by
  obtain ⟨claim, m, hclaim, hm, hurl⟩ :=
    Syncer.member_repeated hsvc ⟨row, hrow, hlive, rfl⟩ hlisted h
  refine ⟨row, m, hrow, hlive, hm, ?_⟩
  unfold Repo.faceFor
  rw [hclaim, Option.map_some, hurl, Syncer.face_repeated hspec h]

theorem Stands.offers (h : e.Stands svc r j) {f : Face} (hf : r.faceFor svc = some f) :
    e.Offers svc f := by
  obtain ⟨row, m, hrow, hlive, hm, hface⟩ := h
  cases hface.symm.trans hf
  exact ⟨j, row, m, hrow, hlive, hm, rfl⟩

end Catalog

theorem Repo.ListedBy.faceFor {svc : Service} {r : Repo} (h : r.ListedBy svc) :
    ∃ url, r.faceFor svc = some (r.row.face url) := by
  obtain ⟨url, hclaim⟩ := claim_of_solo h.claims
  unfold Repo.faceFor
  rw [hclaim]
  exact ⟨url, rfl⟩

namespace Syncer

open Catalog

variable {c e : Catalog} {svc : Service} {sourced : List Repo}

/-- A row that has the name of an entry is told apart by it, as long as the name is of basic
characters. -/
theorem nameKey_of_name {row : RepoRow} {r : Repo} (hascii : Text.IsAscii r.name)
    (hname : row.name = r.name) : row.nameKey = r.lowerName := by
  unfold RepoRow.nameKey Repo.lowerName
  rw [hname, Text.lowerCase_of_ascii hascii]

theorem eq_of_conflicting (hnames : ∀ r ∈ sourced, Text.IsAscii r.name) {a b : Repo}
    (ha : a ∈ (stakeIn c svc.id sourced).conflicting)
    (hb : b ∈ (stakeIn c svc.id sourced).conflicting) (h : a.lowerName = b.lowerName) : a = b := by
  rw [lowerName_of_conflicting hnames ha, lowerName_of_conflicting hnames hb] at h
  obtain ⟨row, hrow, hlive, hview⟩ := (mem_conflicting.mp ha).1
  obtain ⟨row', hrow', hlive', hview'⟩ := (mem_conflicting.mp hb).1
  refine (mem_conflicting.mp ha).1.eq_of_id (mem_conflicting.mp hb).1
    (nameKey_inj hrow hrow' hlive hlive' ?_)
  rw [hview, hview'] at h
  exact h

theorem standing_of_unwritten (h : Batched c svc (planned c svc sourced) e) {j : Int}
    {row old : RepoRow} (hrow : e.repos.get? j = some row) (hlive : row.isLive = true)
    (hold : c.repos.get? j = some old)
    (hunwritten : ∀ x ∈ (planned c svc sourced).modified ++ (planned c svc sourced).added,
      x.spec ≠ old.spec) :
    c.repos.get? j = some row ∧ ¬Orphans (planned c svc sourced) j ∧
      ∀ s, (Goes svc (planned c svc sourced) ⟨j, s⟩ → e.members.get? ⟨j, s⟩ = none) ∧
        (¬Goes svc (planned c svc sourced) ⟨j, s⟩ →
          e.members.get? ⟨j, s⟩ = c.members.get? ⟨j, s⟩) := by
  have hstays : ¬Orphans (planned c svc sourced) j := by
    intro horphan
    obtain ⟨⟨row', hrow', hdead, -⟩, -⟩ := h.orphaned j old hold horphan
    cases hrow.symm.trans hrow'
    cases hdead.symm.trans hlive
  obtain ⟨hrow', hmembers⟩ := h.standing j old hold hunwritten hstays
  cases hrow.symm.trans hrow'
  exact ⟨hold, hstays, hmembers⟩

section

variable (hlisted : ∀ r ∈ sourced, r.ListedBy svc)
include hlisted

theorem exists_leads_of_written {x : Repo}
    (hx : x ∈ (planned c svc sourced).modified ++ (planned c svc sourced).added) :
    ∃ r, Leads sourced r ∧ r.spec = x.spec := by
  obtain ⟨r, hleads, -, hx'⟩ := (mem_plan_written hlisted).mp hx
  exact ⟨r, hleads, (face_written hlisted hleads hx').1.symm⟩

theorem stands_of_brought {r x w : Repo} (hleads : Leads sourced r)
    (hx : (∃ old ∈ (stakeIn c svc.id sourced).stored, r.spec = old.spec ∧ isNews old r = true ∧
        x = updated old r) ∨
      ((∀ old ∈ (stakeIn c svc.id sourced).stored, old.spec ≠ r.spec) ∧ x = r))
    (hw : Brought c e svc x w) : e.Stands svc r w.id := by
  obtain ⟨-, hclaims, hface⟩ := face_written hlisted hleads hx
  obtain ⟨claim, m, hclaim, hm, hurl⟩ := hw.claim
  refine ⟨w.row, m, hw.row, hw.landed.isLive, hm, ?_⟩
  unfold Repo.faceFor
  rw [← hclaims, hclaim, Option.map_some, hurl, face_of_brought hw, hface]

theorem unlisted_of_released {x : Repo} (hx : x ∈ (planned c svc sourced).deleted)
    (hclaims : x.claims.isEmpty = false) : ∀ r ∈ sourced, r.spec ≠ x.spec := by
  rcases planned_deleted_cases hx with hx | ⟨z, -, rfl⟩
  · obtain ⟨old, -, -, ⟨hfirst, rfl⟩ | ⟨-, rfl⟩⟩ := (mem_compared_deleted hlisted).mp hx
    · exact first?_eq_none hfirst
    · cases hclaims
  · cases hclaims

theorem not_goes_of_listed {j : Int} {row : RepoRow} (hrow : c.repos.get? j = some row)
    (hlive : row.isLive = true) (hlists : ∃ x ∈ sourced, x.spec = row.spec)
    (hstays : ¬Orphans (planned c svc sourced) j) (s : Int) :
    ¬Goes svc (planned c svc sourced) ⟨j, s⟩ := by
  rintro ⟨x, hx, hid, -⟩
  have hshows : c.Shows (c.view (j, row)) := ⟨row, hrow, hlive, rfl⟩
  have hspec : x.spec = row.spec := (id_eq_iff_of_deleted (feasible_plan hlisted) hx hshows).mp hid
  cases hclaims : x.claims.isEmpty with
  | true => exact hstays ⟨x, hx, hid, hclaims⟩
  | false =>
      obtain ⟨r, hr, hrspec⟩ := hlists
      exact unlisted_of_released hlisted hx hclaims r hr (hrspec.trans hspec.symm)

/-- Who is not listed and becomes a tombstone although the service alone did not hold it: the service
did not hold it at all, and a leading entry of a smaller identity has its name. -/
theorem beaten_of_orphans (hc : c.Rooted) {j : Int} {row : RepoRow}
    (hrow : c.repos.get? j = some row) (hlive : row.isLive = true)
    (hunlisted : ∀ x ∈ sourced, x.spec ≠ row.spec)
    (hshared : c.isHeld svc.id j = true → ∃ s m, s ≠ svc.id ∧ c.members.get? ⟨j, s⟩ = some m)
    (horphan : Orphans (planned c svc sourced) j) :
    c.view (j, row) ∈ (stakeIn c svc.id sourced).conflicting ∧
      ∃ r, Leads sourced r ∧ r.lowerName = (c.view (j, row)).lowerName ∧ r.spec < row.spec := by
  have hshows : c.Shows (c.view (j, row)) := ⟨row, hrow, hlive, rfl⟩
  have hunheld : c.isHeld svc.id j = false := by
    rw [← Bool.not_eq_true]
    intro hheld
    obtain ⟨s, m, hs, hm⟩ := hshared hheld
    exact not_orphans_kept hlisted hc hshows hheld hunlisted hs hm horphan
  have hforeign : c.view (j, row) ∉ (stakeIn c svc.id sourced).stored := by
    intro hstored
    rcases (mem_stored.mp hstored).2 with hheld | ⟨x, hx, hspec⟩
    · cases hunheld.symm.trans hheld
    · exact hunlisted x hx hspec
  obtain ⟨x, hx, hid, -⟩ := horphan
  rcases planned_deleted_cases hx with hx | ⟨z, ⟨y, hy, hrival, hlt⟩ | ⟨hz, hne, -⟩, rfl⟩
  · obtain ⟨old, hold, -, ⟨-, rfl⟩ | ⟨-, rfl⟩⟩ := (mem_compared_deleted hlisted).mp hx
    · exact (hforeign ((mem_stored.mp hold).1.eq_of_id hshows hid ▸ hold)).elim
    · exact (hforeign ((mem_stored.mp hold).1.eq_of_id hshows hid ▸ hold)).elim
  · obtain ⟨hconflicting, hname, -⟩ := mem_rivalsOf.mp hrival
    obtain rfl : z = c.view (j, row) := (mem_conflicting.mp hconflicting).1.eq_of_id hshows hid
    obtain ⟨r, hleads, hspec, hsame⟩ := listed_of_compared hlisted
      (List.mem_append.mpr (List.mem_append.mp hy).symm)
    exact ⟨hconflicting, r, hleads, hsame.symm.trans hname.symm, hspec ▸ hlt⟩
  · rcases List.mem_append.mp hz with hz | hz
    · exact (hne (hlisted z ((mem_compared_added hlisted).mp hz).1.mem).id).elim
    · obtain ⟨old, hold, r, -, hspec, -, rfl⟩ := (mem_compared_modified hlisted).mp hz
      exact (hforeign ((mem_stored.mp hold).1.eq_of_id hshows hid ▸ hold)).elim

variable (hsvc : c.Holds svc) (hc : c.Rooted) (h : Batched c svc (planned c svc sourced) e)
include hsvc hc h

theorem stands_of_unwritten {j : Int} {row old : RepoRow} (hrow : e.repos.get? j = some row)
    (hlive : row.isLive = true) (hold : c.repos.get? j = some old)
    (hunwritten : ∀ x ∈ (planned c svc sourced).modified ++ (planned c svc sourced).added,
      x.spec ≠ old.spec)
    (hstake : e.isHeld svc.id j = true ∨ ∃ x ∈ sourced, x.spec = row.spec) :
    ∃ r, Leads sourced r ∧ r.spec = row.spec ∧ c.Stands svc r j ∧ e.Stands svc r j ∧
      ∀ s, e.members.get? ⟨j, s⟩ = c.members.get? ⟨j, s⟩ := by
  obtain ⟨hbefore, hstays, hmembers⟩ :=
    standing_of_unwritten h hrow hlive hold hunwritten
  cases hold.symm.trans hbefore
  have hremains : ¬Goes svc (planned c svc sourced) ⟨j, svc.id⟩ := by
    rcases hstake with hheld | hlists
    · intro hgoes
      rw [isHeld, (hmembers svc.id).1 hgoes] at hheld
      cases hheld
    · exact not_goes_of_listed hlisted hbefore hlive hlists hstays svc.id
  have hstored : c.view (j, row) ∈ (stakeIn c svc.id sourced).stored := by
    refine mem_stored.mpr ⟨⟨row, hbefore, hlive, rfl⟩, hstake.imp_left fun hheld => ?_⟩
    rw [isHeld, (hmembers svc.id).2 hremains] at hheld
    exact hheld
  obtain ⟨r, hleads, hspec, hnews⟩ :=
    exists_repeated hlisted hc hbefore hstored hunwritten hremains
  have hstands : c.Stands svc r j :=
    stands_of_not_news hsvc (hlisted r hleads.mem) hbefore hlive hspec hnews
  refine ⟨r, hleads, hspec, hstands, hstands.of_same (hrow.trans hbefore.symm)
    ((hmembers svc.id).2 hremains), fun s => (hmembers s).2 ?_⟩
  exact not_goes_of_listed hlisted hbefore hlive ⟨r, hleads.mem, hspec⟩ hstays s

/-- A live row that the service holds or lists stands for a leading entry. -/
theorem stands_of_stake {j : Int} {row : RepoRow} (hrow : e.repos.get? j = some row)
    (hlive : row.isLive = true)
    (hstake : e.isHeld svc.id j = true ∨ ∃ x ∈ sourced, x.spec = row.spec) :
    ∃ r, Leads sourced r ∧ r.spec = row.spec ∧ e.Stands svc r j := by
  rcases h.origin j row hrow with ⟨x, hx, w, hw, rfl⟩ | ⟨old, hold, hunwritten⟩
  · obtain ⟨r, hleads, -, hx'⟩ := (mem_plan_written hlisted).mp hx
    cases hrow.symm.trans hw.row
    refine ⟨r, hleads, ?_, stands_of_brought hlisted hleads hx' hw⟩
    exact (face_written hlisted hleads hx').1.symm.trans hw.landed.spec.symm
  · obtain ⟨r, hleads, hspec, -, hstands, -⟩ :=
      stands_of_unwritten hlisted hsvc hc h hrow hlive hold hunwritten hstake
    exact ⟨r, hleads, hspec, hstands⟩

end

end Syncer

end RepoCatalog
