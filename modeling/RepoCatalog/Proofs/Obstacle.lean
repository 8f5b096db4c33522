import RepoCatalog.Proofs.Winner

/-!
# What stands in the way of a batch

A batch writes one row after the other, first what is modified and then what is added. A winner
cannot be written while another live row has its name: a row that the service loses and another
service keeps, or a row that is to be written itself, but later.
-/
namespace RepoCatalog

open Time (Instant)

namespace Catalog

variable {c : Catalog} {svc : Service}

/-- The order in which a batch of the service comes to rows: first what the service holds, and both
parts in the order of the ids. -/
def Before (c : Catalog) (svc : Service) (i j : Int) : Prop :=
  if c.isHeld svc.id i = c.isHeld svc.id j then i < j else c.isHeld svc.id i = true

theorem Before.asymm {i j : Int} (h : c.Before svc i j) : ¬c.Before svc j i := by
  unfold Before at h ⊢
  by_cases heq : c.isHeld svc.id i = c.isHeld svc.id j
  · rw [if_pos heq] at h
    rw [if_pos heq.symm]
    exact Int.not_lt.mpr (Int.le_of_lt h)
  · rw [if_neg heq] at h
    rw [if_neg (Ne.symm heq)]
    intro hj
    exact heq (h.trans hj.symm)

end Catalog

namespace Syncer

open Catalog

variable {c c₁ c₂ e : Catalog} {svc : Service} {sourced : List Repo} {now : Instant}

/-- Why a live row that has the name of a winner still stands when the winner is written. -/
inductive Stands (c : Catalog) (svc : Service) (sourced : List Repo) (r : Repo) (j : Int)
    (row : RepoRow) : Prop where
  /-- The service held it and no longer lists it, and another service holds it too. -/
  | kept : (∃ m, c.members.get? ⟨j, svc.id⟩ = some m) → (∀ x ∈ sourced, x.spec ≠ row.spec) →
      (∃ s m, s ≠ svc.id ∧ c.members.get? ⟨j, s⟩ = some m) → Stands c svc sourced r j row
  /-- It is the row of another winner, and the winner's own row comes before it. -/
  | later {x : Repo} {k : Int} {own : RepoRow} : Winner c svc sourced x → x.spec = row.spec →
      c.repos.get? k = some own → own.isLive = true → own.spec = r.spec → c.Before svc k j →
        Stands c svc sourced r j row

/-- A live row that keeps a winner from its name. -/
structure Obstacle (c : Catalog) (svc : Service) (sourced : List Repo) (r : Repo) (j : Int)
    (row : RepoRow) : Prop where
  winner : Winner c svc sourced r
  found : c.repos.get? j = some row
  live : row.isLive = true
  name : row.nameKey = r.lowerName
  other : row.spec ≠ r.spec
  stands : Stands c svc sourced r j row

/-- Some winner is kept from its name. -/
def Obstructed (c : Catalog) (svc : Service) (sourced : List Repo) : Prop :=
  ∃ r j row, Obstacle c svc sourced r j row

/-- Nothing is in the way of a service that neither holds nor lists anything of what is stored. -/
theorem unobstructed_of_foreign
    (hfree : ∀ j row, c.repos.get? j = some row → ¬∃ m, c.members.get? ⟨j, svc.id⟩ = some m)
    (hunlisted : ∀ j row, c.repos.get? j = some row → ∀ x ∈ sourced, x.spec ≠ row.spec) :
    ¬Obstructed c svc sourced := by
  rintro ⟨r, j, row, hobstacle⟩
  cases hobstacle.stands with
  | kept hheld _ _ => exact hfree j row hobstacle.found hheld
  | later hwinner hspec _ _ _ _ =>
      exact hunlisted j row hobstacle.found _ hwinner.leads.mem hspec

theorem pairwise_stored_before (c : Catalog) (svc : Service) (sourced : List Repo) :
    (stakeIn c svc.id sourced).stored.Pairwise fun a b => c.Before svc a.id b.id := by
  obtain ⟨same, heq, hsame, hfree⟩ := stored_eq c svc.id sourced
  rw [heq, List.pairwise_append]
  have hheld : ∀ a ∈ heldBy c svc.id, c.isHeld svc.id a.id = true :=
    fun a ha => (mem_heldBy.mp ha).2
  unfold Before
  refine ⟨(c.pairwise_seen _).imp_of_mem fun {a b} ha hb hlt => ?_,
    hsame.imp_of_mem fun {a b} ha hb hlt => ?_, fun a ha b hb => ?_⟩
  · rw [if_pos ((hheld a ha).trans (hheld b hb).symm)]
    exact hlt
  · rw [if_pos ((hfree a ha).trans (hfree b hb).symm)]
    exact hlt
  · rw [hheld a ha, hfree b hb]
    simp

theorem pairwise_modified_before (c : Catalog) (svc : Service) (sourced : List Repo) :
    (compared c svc sourced).modified.Pairwise fun a b => c.Before svc a.id b.id := by
  rw [compared_eq]
  unfold Diff.settled
  rw [List.pairwise_filterMap]
  refine (pairwise_stored_before c svc sourced).imp fun {a b} hab x hx z hz => ?_
  rw [Diff.id_of_revision hx, Diff.id_of_revision hz]
  exact hab

/-- Whether one of two repositories to be written comes first: those with an id do. -/
def Precedes (c : Catalog) (svc : Service) (a b : Repo) : Prop :=
  b.id = 0 ∨ (a.id ≠ 0 ∧ c.Before svc a.id b.id)

theorem pairwise_precedes (now : Instant) (hc : c.Rooted) (hlisted : ∀ r ∈ sourced, r.ListedBy svc) :
    ((stamp now (planned c svc sourced)).modified ++
      (stamp now (planned c svc sourced)).added).Pairwise (Precedes c svc) := by
  have hd := feasible_plan (c := c) hlisted
  have hadded : ∀ x ∈ (stamp now (planned c svc sourced)).added, x.id = 0 := by
    intro x hx
    obtain ⟨z, hz, rfl⟩ := List.mem_map.mp hx
    exact (hd.added z hz).1
  have hmodified : (planned c svc sourced).modified.Pairwise fun a b => c.Before svc a.id b.id := by
    obtain ⟨dropped, hres⟩ := planned_resolved c svc sourced
    rw [hres.modified]
    exact (pairwise_modified_before c svc sourced).filter _
  have hids : ∀ x ∈ (planned c svc sourced).modified, x.id ≠ 0 := by
    intro x hx
    obtain ⟨old, hold, hid, -⟩ := hd.modified x hx
    obtain ⟨row, hrow, -⟩ := hd.shown old hold
    rw [hid]
    exact Int.ne_of_gt (hc.ids _ _ hrow)
  rw [List.pairwise_append]
  refine ⟨?_, ?_, fun a _ b hb => .inl (hadded b hb)⟩
  · refine List.pairwise_map.mpr (hmodified.imp_of_mem fun {a b} ha _ hab => ?_)
    exact .inr ⟨hids a ha, hab⟩
  · exact List.pairwise_of_forall_mem_list fun a _ b hb => .inl (hadded b hb)

section

variable (hlisted : ∀ r ∈ sourced, r.ListedBy svc)
include hlisted

theorem orphans_dropped {x : Repo} {old : Repo} (hold : c.Shows old)
    (hx : x ∈ (planned c svc sourced).deleted) (hspec : x.spec = old.spec)
    (hother : x ∉ (compared c svc sourced).deleted) : Orphans (planned c svc sourced) old.id := by
  have hid := (id_eq_iff_of_deleted (feasible_plan hlisted) hx hold).mpr hspec
  refine ⟨x, hx, hid, ?_⟩
  obtain ⟨z, -, rfl⟩ := (planned_deleted_cases hx).resolve_left hother
  rfl

theorem orphans_conflicting {r x : Repo} (hleads : Leads sourced r)
    (hwins : wins (stakeIn c svc.id sourced).conflicting r = true)
    (hx : x ∈ (planned c svc sourced).modified ++ (planned c svc sourced).added)
    (hxname : x.lowerName = r.lowerName) (hxspec : x.spec = r.spec) {h : Repo}
    (hh : h ∈ (stakeIn c svc.id sourced).conflicting) (hname : h.lowerName = r.lowerName) :
    Orphans (planned c svc sourced) h.id := by
  obtain ⟨hshows, -, hunlisted, -⟩ := mem_conflicting.mp hh
  obtain ⟨dropped, hres⟩ := planned_resolved c svc sourced
  have hwritten : x ∈ (compared c svc sourced).added ++ (compared c svc sourced).modified := by
    rw [hres.modified, hres.added] at hx
    rcases List.mem_append.mp hx with hx | hx
    · exact List.mem_append_right _ (List.mem_filter.mp hx).1
    · exact List.mem_append_left _ (List.mem_filter.mp hx).1
  have hrival : h ∈ rivalsOf (stakeIn c svc.id sourced).conflicting x := by
    refine mem_rivalsOf.mpr ⟨hh, hname.trans hxname.symm, ?_⟩
    rw [hxspec]
    exact Ne.symm (hunlisted r hleads.mem)
  rw [← wins_congr hxname hxspec] at hwins
  obtain ⟨z, hz, hspec⟩ := hres.beaten x hwritten hwins h hrival
  refine orphans_dropped hlisted hshows hz hspec fun hother => ?_
  obtain ⟨old, hold, -, hcase⟩ := (mem_compared_deleted hlisted).mp hother
  have hsame : old.spec = h.spec := by
    rw [← hspec]
    rcases hcase with ⟨-, rfl⟩ | ⟨-, rfl⟩ <;> rfl
  rcases (mem_stored.mp hold).2 with hheld | ⟨y, hy, hys⟩
  · have hfree := (mem_conflicting.mp hh).2.1
    rw [(mem_stored.mp hold).1.eq_of_spec hshows hsame, hfree] at hheld
    cases hheld
  · exact hunlisted y hy (hys.trans hsame)

theorem orphans_loser {old r : Repo} (hold : old ∈ (stakeIn c svc.id sourced).stored)
    (hid : old.id ≠ 0) (hleads : Leads sourced r) (hspec : r.spec = old.spec)
    (hnews : isNews old r = true) (hloses : wins (stakeIn c svc.id sourced).conflicting r = false) :
    Orphans (planned c svc sourced) old.id := by
  obtain ⟨x, hx, hxspec⟩ := exists_deleted hlisted hold hid fun r' hleads' hspec' => by
    rw [hleads'.eq_of_spec hleads (hspec'.trans hspec.symm)]
    exact ⟨hnews, hloses⟩
  refine orphans_dropped hlisted (mem_stored.mp hold).1 hx hxspec fun hother => ?_
  obtain ⟨z, -, hnone, hcase⟩ := (mem_compared_deleted hlisted).mp hother
  have hsame : z.spec = old.spec := by
    rw [← hxspec]
    rcases hcase with ⟨-, rfl⟩ | ⟨-, rfl⟩ <;> rfl
  exact hnone r hleads (hspec.trans hsame.symm)

theorem orphans_outnamed {old : Repo} (hold : old ∈ (stakeIn c svc.id sourced).stored)
    (hnone : ∀ r, Leads sourced r → r.spec ≠ old.spec) (hfirst : first? sourced old.spec ≠ none) :
    Orphans (planned c svc sourced) old.id := by
  obtain ⟨dropped, hres⟩ := planned_resolved c svc sourced
  refine ⟨old.unclaimed, ?_, rfl, rfl⟩
  rw [hres.deleted]
  exact List.mem_append_left _
    ((mem_compared_deleted hlisted).mpr ⟨old, hold, hnone, .inr ⟨hfirst, rfl⟩⟩)

theorem not_orphans_kept (hc : c.Rooted) {h : Repo} (hshows : c.Shows h)
    (hheld : c.isHeld svc.id h.id = true) (hunlisted : ∀ x ∈ sourced, x.spec ≠ h.spec) {s : Int}
    {m : Membership} (hs : s ≠ svc.id) (hm : c.members.get? ⟨h.id, s⟩ = some m) :
    ¬Orphans (planned c svc sourced) h.id := by
  rintro ⟨x, hx, hid, hempty⟩
  have hspec := (id_eq_iff_of_deleted (feasible_plan hlisted) hx hshows).mp hid
  rcases planned_deleted_cases hx with hx | ⟨z, ⟨_, -, hrival, -⟩ | ⟨hz, hzid, -⟩, rfl⟩
  · obtain ⟨old, hold, -, ⟨-, rfl⟩ | ⟨hfirst, rfl⟩⟩ := (mem_compared_deleted hlisted).mp hx
    · have hsame := (mem_stored.mp hold).1.eq_of_spec hshows hspec
      obtain ⟨kind, hkind⟩ := hc.furnished.kindOf?_isSome hm
      have hclaim := hshows.get?_claims.mpr ⟨s, m, kind, hm, hkind, rfl, rfl⟩
      have hgone := Dict.isEmpty_iff.mp hempty (Urn.format kind s)
      rw [hsame, Dict.get?_erase, if_neg (urn_ne_of_service_ne hs), hclaim] at hgone
      cases hgone
    · obtain ⟨r, hr⟩ := Option.ne_none_iff_exists'.mp hfirst
      obtain ⟨hmem, hrspec⟩ := first?_some hr
      exact hunlisted r hmem (hrspec.trans hspec)
  · obtain ⟨hzshows, hunheld, -⟩ := mem_conflicting.mp (mem_rivalsOf.mp hrival).1
    rw [hzshows.eq_of_spec hshows hspec, hheld] at hunheld
    cases hunheld
  · have hz' := List.mem_append.mpr (List.mem_append.mp hz).symm
    obtain ⟨r, hleads, hzspec, -⟩ := listed_of_compared hlisted hz'
    exact hunlisted r hleads.mem (hzspec.symm.trans hspec)

end

theorem name_written {x r : Repo}
    (hx : (∃ old ∈ (stakeIn c svc.id sourced).stored, r.spec = old.spec ∧ isNews old r = true ∧
        x = updated old r) ∨
      ((∀ old ∈ (stakeIn c svc.id sourced).stored, old.spec ≠ r.spec) ∧ x = r)) :
    x.name = r.name := by
  rcases hx with ⟨old, -, -, -, rfl⟩ | ⟨-, rfl⟩ <;> rfl

theorem mem_stamped {d : Diff} {x : Repo} (hx : x ∈ (stamp now d).modified ++ (stamp now d).added) :
    ∃ z ∈ d.modified ++ d.added,
      x.id = z.id ∧ x.spec = z.spec ∧ x.name = z.name ∧ x.deletedAt = none := by
  rcases List.mem_append.mp hx with hx | hx
  · obtain ⟨z, hz, rfl⟩ := List.mem_map.mp hx
    exact ⟨z, List.mem_append_left _ hz, rfl, rfl, rfl, rfl⟩
  · obtain ⟨z, hz, rfl⟩ := List.mem_map.mp hx
    exact ⟨z, List.mem_append_right _ hz, rfl, rfl, rfl, rfl⟩

theorem exists_stamped (now : Instant) {d : Diff} {z : Repo} (hz : z ∈ d.modified ++ d.added) :
    ∃ x ∈ (stamp now d).modified ++ (stamp now d).added,
      x.id = z.id ∧ x.spec = z.spec ∧ x.name = z.name ∧ x.deletedAt = none := by
  rcases List.mem_append.mp hz with hz | hz
  · exact ⟨_, List.mem_append_left _ (List.mem_map.mpr ⟨z, hz, rfl⟩), rfl, rfl, rfl, rfl⟩
  · exact ⟨_, List.mem_append_right _ (List.mem_map.mpr ⟨z, hz, rfl⟩), rfl, rfl, rfl, rfl⟩

theorem first?_eq_none {spec : Spec} (h : first? sourced spec = none) :
    ∀ x ∈ sourced, x.spec ≠ spec := by
  intro x hx
  unfold first? at h
  rw [List.find?_eq_none] at h
  simpa using h x ((List.mergeSort_perm sourced _).mem_iff.mpr hx)

/-- The state of the rows when the turn of `x` comes, after `pre`. -/
structure Turn (c₂ : Catalog) (pre : List Repo) (x : Repo) (pre' : List Repo) (e : Catalog) :
    Prop where
  fits : e.Fits x
  apart : ∀ p ∈ pre, p.spec ≠ x.spec
  placed : List.Forall₂ c₂.Placed pre pre'
  rows : ∀ j row, e.repos.get? j = some row ↔ (∃ p ∈ pre', p.id = j ∧ p.row = row) ∨
    (c₂.repos.get? j = some row ∧ ∀ p ∈ pre, p.spec ≠ row.spec)

theorem turn {previous : List Repo} {d : Diff} (hd : Feasible c svc previous d)
    (hspecs : ∀ j spec, (∃ row, c₂.repos.get? j = some row ∧ row.spec = spec) ↔
      ∃ row, c.repos.get? j = some row ∧ row.spec = spec)
    {x : Repo} {pre post pre' : List Repo}
    (hsplit : (stamp now d).modified ++ (stamp now d).added = pre ++ x :: post)
    (hpre : SavedAll c₂ pre pre' e) : Turn c₂ pre x pre' e := by
  have hfits : ∀ y ∈ pre ++ x :: post, c₂.Fits y := by
    rw [← hsplit]
    intro y hy
    exact (List.mem_append.mp hy).elim (fits_modified hd hspecs y) (fits_added hd y)
  have hpw : (pre ++ x :: post).Pairwise fun a b => a.spec ≠ b.spec :=
    hsplit ▸ pairwise_stamped now hd
  obtain ⟨hprepw, -, hcross⟩ := List.pairwise_append.mp hpw
  have hprefits : ∀ y ∈ pre, c₂.Fits y := fun y hy => hfits y (List.mem_append_left _ hy)
  have hne : ∀ p ∈ pre, p.spec ≠ x.spec := fun p hp => hcross p hp x List.mem_cons_self
  constructor
  · exact hpre.fits_after hprefits hprepw (hfits x (by simp)) hne
  · exact hne
  · exact hpre.placed hprefits hprepw
  · exact fun j row => hpre.get?_iff hprefits hprepw

/-- What is written of an entry: the entry's identity and name, under the id of its stored row. -/
structure Written (c : Catalog) (svc : Service) (sourced : List Repo) (r x : Repo) : Prop where
  leads : Leads sourced r
  wins : wins (stakeIn c svc.id sourced).conflicting r = true
  spec : x.spec = r.spec
  name : x.name = r.name
  live : x.deletedAt = none
  origin : (∃ old ∈ (stakeIn c svc.id sourced).stored, r.spec = old.spec ∧ x.id = old.id) ∨
    ((∀ old ∈ (stakeIn c svc.id sourced).stored, old.spec ≠ r.spec) ∧ x.id = 0)
  planned : ∃ z ∈ (planned c svc sourced).modified ++ (planned c svc sourced).added,
    z.lowerName = r.lowerName ∧ z.spec = r.spec

theorem written_of_plan (hlisted : ∀ r ∈ sourced, r.ListedBy svc) {r x z : Repo}
    (hleads : Leads sourced r) (hwins : wins (stakeIn c svc.id sourced).conflicting r = true)
    (hz : (∃ old ∈ (stakeIn c svc.id sourced).stored, r.spec = old.spec ∧ isNews old r = true ∧
        z = updated old r) ∨
      ((∀ old ∈ (stakeIn c svc.id sourced).stored, old.spec ≠ r.spec) ∧ z = r))
    (hx : x.id = z.id ∧ x.spec = z.spec ∧ x.name = z.name ∧ x.deletedAt = none) :
    Written c svc sourced r x := by
  obtain ⟨hid, hspec, hname, hlive⟩ := hx
  have hzspec := (face_written hlisted hleads hz).1
  have hzname := name_written hz
  constructor
  · exact hleads
  · exact hwins
  · exact hspec.trans hzspec
  · exact hname.trans hzname
  · exact hlive
  · rcases hz with ⟨old, hold, hsame, -, rfl⟩ | ⟨hfresh, rfl⟩
    · exact .inl ⟨old, hold, hsame, hid⟩
    · exact .inr ⟨hfresh, hid.trans (hlisted z hleads.mem).id⟩
  · exact ⟨z, (mem_plan_written hlisted).mpr ⟨r, hleads, hwins, hz⟩,
      congrArg Text.lowerCase hzname, hzspec⟩

theorem written_of_mem (hlisted : ∀ r ∈ sourced, r.ListedBy svc) {x : Repo}
    (hx : x ∈ (stamp now (planned c svc sourced)).modified ++
      (stamp now (planned c svc sourced)).added) : ∃ r, Written c svc sourced r x := by
  obtain ⟨z, hz, hsame⟩ := mem_stamped hx
  obtain ⟨r, hleads, hwins, hcase⟩ := (mem_plan_written hlisted).mp hz
  exact ⟨r, written_of_plan hlisted hleads hwins hcase hsame⟩

/-- A winning entry is written unless it only repeats what is stored. -/
theorem exists_written (hlisted : ∀ r ∈ sourced, r.ListedBy svc) (now : Instant) {r : Repo}
    (hleads : Leads sourced r) (hwins : wins (stakeIn c svc.id sourced).conflicting r = true)
    (hnews : ∀ old ∈ (stakeIn c svc.id sourced).stored, r.spec = old.spec → isNews old r = true) :
    ∃ x ∈ (stamp now (planned c svc sourced)).modified ++
      (stamp now (planned c svc sourced)).added, Written c svc sourced r x := by
  obtain ⟨z, hz⟩ : ∃ z, (∃ old ∈ (stakeIn c svc.id sourced).stored, r.spec = old.spec ∧
        isNews old r = true ∧ z = updated old r) ∨
      ((∀ old ∈ (stakeIn c svc.id sourced).stored, old.spec ≠ r.spec) ∧ z = r) := by
    by_cases hold : ∃ old ∈ (stakeIn c svc.id sourced).stored, r.spec = old.spec
    · obtain ⟨old, hold, hspec⟩ := hold
      exact ⟨_, .inl ⟨old, hold, hspec, hnews old hold hspec, rfl⟩⟩
    · exact ⟨_, .inr ⟨fun old hmem hspec => hold ⟨old, hmem, hspec.symm⟩, rfl⟩⟩
  obtain ⟨x, hx, hsame⟩ :=
    exists_stamped now ((mem_plan_written hlisted).mpr ⟨r, hleads, hwins, hz⟩)
  exact ⟨x, hx, written_of_plan hlisted hleads hwins hz hsame⟩

theorem live_deleted {previous : List Repo} {d : Diff} (hc : c.Rooted)
    (hd : Feasible c svc previous d)
    (hstripped : Edited c { MembershipEdits.empty with
      deleted := (MembershipEdits.ofDiff d previous).deleted } c₁)
    (hdeleted : Deleted c₁ ((d.deleted.filter isOrphaned).map (·.id)) c₂) {j : Int} {row : RepoRow}
    (hlive : row.isLive = true) : c₂.repos.get? j = some row ↔
      c.repos.get? j = some row ∧ ¬Orphans d j := by
  obtain ⟨horphan, hother⟩ := rows_deleted hc hd hstripped hdeleted j
  by_cases h : Orphans d j
  · constructor
    · intro hrow
      obtain ⟨old, hold, -⟩ := (spec_deleted hc hd hstripped hdeleted).mp ⟨row, hrow, rfl⟩
      obtain ⟨row', hrow', hdead, -⟩ := horphan h old hold
      cases hrow.symm.trans hrow'
      rw [hlive] at hdead
      cases hdead
    · rintro ⟨-, hno⟩
      exact absurd h hno
  · rw [hother h]
    exact ⟨fun hrow => ⟨hrow, h⟩, fun hrow => hrow.1⟩

theorem lowerName_repeated (hwell : ∀ r ∈ sourced, r.WellFormed svc) {j : Int} {row : RepoRow}
    {r : Repo} (hr : r ∈ sourced) (h : isNews (c.view (j, row)) r = false) :
    r.lowerName = row.nameKey := by
  rw [lowerName_of_wellFormed (hwell r hr), ← (repeated h).name]
  rfl

theorem Written.id_eq {r x : Repo} (hx : Written c svc sourced r x) {k : Int} {own : RepoRow}
    (hown : c.repos.get? k = some own) (hlive : own.isLive = true) (hspec : own.spec = r.spec) :
    x.id = k := by
  have hshows : c.Shows (c.view (k, own)) := ⟨own, hown, hlive, rfl⟩
  have hstored : c.view (k, own) ∈ (stakeIn c svc.id sourced).stored :=
    mem_stored.mpr ⟨hshows, .inr ⟨r, hx.leads.mem, hspec.symm⟩⟩
  rcases hx.origin with ⟨old, hold, hsame, hid⟩ | ⟨hfresh, -⟩
  · rw [hid, (mem_stored.mp hold).1.eq_of_spec hshows (hsame.symm.trans hspec.symm)]
    rfl
  · exact absurd hspec (hfresh _ hstored)

theorem isNews_of_taken (hwell : ∀ r ∈ sourced, r.WellFormed svc) {r : Repo} (hr : r ∈ sourced)
    {j : Int} {row : RepoRow} (hrow : c.repos.get? j = some row) (hlive : row.isLive = true)
    (hname : row.nameKey = r.lowerName) (hother : row.spec ≠ r.spec) :
    ∀ old ∈ (stakeIn c svc.id sourced).stored, r.spec = old.spec → isNews old r = true := by
  intro old hold hspec
  obtain ⟨own, hown, hownlive, hview⟩ := (mem_stored.mp hold).1
  have hownspec : old.spec = own.spec := by
    rw [hview]
    rfl
  by_contra hfalse
  rw [hview] at hfalse
  have hsame := lowerName_repeated hwell hr (Bool.eq_false_iff.mpr hfalse)
  have hid := nameKey_inj hrow hown hlive hownlive (hname.trans hsame)
  rw [hid, hown] at hrow
  cases hrow
  exact hother (hownspec.symm.trans hspec.symm)

theorem isNews_of_rival (hwell : ∀ r ∈ sourced, r.WellFormed svc) {r y : Repo}
    (hr : Leads sourced r) (hy : Leads sourced y) {j : Int} {row : RepoRow}
    (hspec : y.spec = row.spec) (hname : row.nameKey = r.lowerName) (hother : row.spec ≠ r.spec) :
    isNews (c.view (j, row)) y = true := by
  by_contra hfalse
  have hsame := lowerName_repeated hwell hy.mem (Bool.eq_false_iff.mpr hfalse)
  rw [hy.eq_of_name hr (hsame.trans hname)] at hspec
  exact hother hspec.symm

section

variable (hc : c.Rooted) (hwell : ∀ r ∈ sourced, r.WellFormed svc)
include hc hwell

/-- The row of another leading entry that has the name of what is being written: the entry says
something new and wins, so it is to be written too, and if it was not, then it comes later. -/
theorem stands_later {x r r' : Repo} {pre post : List Repo}
    (hsplit : (stamp now (planned c svc sourced)).modified ++
      (stamp now (planned c svc sourced)).added = pre ++ x :: post)
    (hx : Written c svc sourced r x) {j : Int} {row : RepoRow} (hj : j ≠ 0)
    (hstored : c.view (j, row) ∈ (stakeIn c svc.id sourced).stored)
    (hname : row.nameKey = r.lowerName) (hother : row.spec ≠ r.spec) (hleads' : Leads sourced r')
    (hspec' : r'.spec = row.spec) (hstays : ¬Orphans (planned c svc sourced) j)
    (hlater : ∀ p ∈ pre, p.spec ≠ row.spec) : Stands c svc sourced r j row := by
  have hlisted : ∀ r ∈ sourced, r.ListedBy svc := fun r hr => (hwell r hr).toListedBy
  have hnews := isNews_of_rival (c := c) (j := j) hwell hx.leads hleads' hspec' hname hother
  have hwins' : wins (stakeIn c svc.id sourced).conflicting r' = true := by
    by_contra hfalse
    exact hstays (orphans_loser hlisted hstored hj hleads' hspec' hnews
      (Bool.eq_false_iff.mpr hfalse))
  have hwritten : updated (c.view (j, row)) r' ∈
      (planned c svc sourced).modified ++ (planned c svc sourced).added :=
    (mem_plan_written hlisted).mpr ⟨r', hleads', hwins', .inl ⟨_, hstored, hspec', hnews, rfl⟩⟩
  obtain ⟨p, hp, hpid, hpspec, -⟩ := exists_stamped now hwritten
  rw [spec_updated hspec', hspec'] at hpspec
  have horder := pairwise_precedes now hc hlisted
  rw [hsplit] at hp horder
  have hpost : p ∈ post := by
    rcases List.mem_append.mp hp with hp | hp
    · exact absurd hpspec (hlater p hp)
    · rcases List.mem_cons.mp hp with rfl | hp
      · exact absurd (hpspec.symm.trans hx.spec) hother
      · exact hp
  -- What comes after `x` and has an id has a row after that of `x`, which then has one too.
  have hfirst := (List.pairwise_cons.mp (List.pairwise_append.mp horder).2.1).1 p hpost
  obtain ⟨hxne, hbefore⟩ := hfirst.resolve_left (hpid ▸ hj)
  obtain ⟨old, hold, hspec, hxid⟩ := hx.origin.resolve_right fun hfresh => hxne hfresh.2
  rw [hpid, hxid] at hbefore
  obtain ⟨own, hown, hownlive, hview⟩ := (mem_stored.mp hold).1
  refine .later ((winner_iff hwell).mpr ⟨hleads', hwins'⟩) hspec' hown hownlive ?_ hbefore
  rw [hspec, hview]
  rfl

theorem stands_kept (hsvc : c.Holds svc) {r : Repo} {j : Int} {row : RepoRow}
    (hrow : c.repos.get? j = some row) (hlive : row.isLive = true)
    (hstored : c.view (j, row) ∈ (stakeIn c svc.id sourced).stored)
    (hnone : ∀ r, Leads sourced r → r.spec ≠ row.spec)
    (hstays : ¬Orphans (planned c svc sourced) j) : Stands c svc sourced r j row := by
  have hlisted : ∀ r ∈ sourced, r.ListedBy svc := fun r hr => (hwell r hr).toListedBy
  have hd := feasible_plan (c := c) hlisted
  have hshows : c.Shows (c.view (j, row)) := ⟨row, hrow, hlive, rfl⟩
  have hj : j ≠ 0 := Int.ne_of_gt (hc.ids j row hrow)
  by_cases hfirst : first? sourced row.spec = none
  · have hunlisted := first?_eq_none hfirst
    have hheld : c.isHeld svc.id j = true := by
      refine (mem_stored.mp hstored).2.resolve_right ?_
      rintro ⟨y, hy, hys⟩
      exact hunlisted y hy hys
    obtain ⟨y, hy, hyspec⟩ := exists_deleted hlisted hstored hj
      fun r hr hspec => absurd hspec (hnone r hr)
    have hyid := (id_eq_iff_of_deleted hd hy hshows).mpr hyspec
    have hgoes : Goes svc (planned c svc sourced) ⟨j, svc.id⟩ := ⟨y, hy, hyid, .inr rfl⟩
    obtain ⟨s, m, hm, hkeeps⟩ := held_elsewhere hsvc hd hstays hgoes
    refine .kept (Option.isSome_iff_exists.mp hheld) hunlisted ⟨s, m, ?_, hm⟩
    rintro rfl
    exact hkeeps hgoes
  · exact absurd (orphans_outnamed hlisted hstored hnone hfirst) hstays

omit hc in
theorem orphans_of_foreign {x r : Repo} (hx : Written c svc sourced r x) {j : Int} {row : RepoRow}
    (hrow : c.repos.get? j = some row) (hlive : row.isLive = true)
    (hname : row.nameKey = r.lowerName)
    (hforeign : c.view (j, row) ∉ (stakeIn c svc.id sourced).stored) :
    Orphans (planned c svc sourced) j := by
  have hlisted : ∀ r ∈ sourced, r.ListedBy svc := fun r hr => (hwell r hr).toListedBy
  have hshows : c.Shows (c.view (j, row)) := ⟨row, hrow, hlive, rfl⟩
  have hfree : c.isHeld svc.id j = false := by
    rw [← Bool.not_eq_true]
    exact fun hheld => hforeign (mem_stored.mpr ⟨hshows, .inl hheld⟩)
  have hunlisted : ∀ y ∈ sourced, y.spec ≠ row.spec :=
    fun y hy hys => hforeign (mem_stored.mpr ⟨hshows, .inr ⟨y, hy, hys⟩⟩)
  have hconflicting : c.view (j, row) ∈ (stakeIn c svc.id sourced).conflicting :=
    mem_conflicting.mpr ⟨hshows, hfree, hunlisted, r, hx.leads.mem, hname.symm⟩
  have hsame := (lowerName_of_conflicting (fun r hr => (hwell r hr).name) hconflicting).trans hname
  obtain ⟨z, hz, hzname, hzspec⟩ := hx.planned
  exact orphans_conflicting hlisted hx.leads hx.wins hz hzname hzspec hconflicting hsame

/-- A live row that has the name of what is being written, and neither goes nor was written before,
is an obstacle. -/
theorem obstructed_of_standing (hsvc : c.Holds svc) {x r : Repo} {pre post : List Repo}
    (hsplit : (stamp now (planned c svc sourced)).modified ++
      (stamp now (planned c svc sourced)).added = pre ++ x :: post)
    (hx : Written c svc sourced r x) {j : Int} {row : RepoRow}
    (hrow : c.repos.get? j = some row) (hlive : row.isLive = true)
    (hname : row.nameKey = r.lowerName) (hother : row.spec ≠ r.spec)
    (hstays : ¬Orphans (planned c svc sourced) j) (hlater : ∀ p ∈ pre, p.spec ≠ row.spec) :
    Obstructed c svc sourced := by
  have hj : j ≠ 0 := Int.ne_of_gt (hc.ids j row hrow)
  refine ⟨r, j, row, (winner_iff hwell).mpr ⟨hx.leads, hx.wins⟩, hrow, hlive, hname, hother, ?_⟩
  by_cases hstored : c.view (j, row) ∈ (stakeIn c svc.id sourced).stored
  · by_cases hleader : ∃ r', Leads sourced r' ∧ r'.spec = row.spec
    · obtain ⟨r', hleads', hspec'⟩ := hleader
      exact stands_later hc hwell hsplit hx hj hstored hname hother hleads' hspec' hstays hlater
    · exact stands_kept hc hwell hsvc hrow hlive hstored
        (fun r hr hspec => hleader ⟨r, hr, hspec⟩) hstays
  · exact absurd (orphans_of_foreign hwell hx hrow hlive hname hstored) hstays

theorem target_of_turn {pre pre' : List Repo} {x r : Repo}
    (hspecs : ∀ j spec, (∃ row, c₂.repos.get? j = some row ∧ row.spec = spec) ↔
      ∃ row, c.repos.get? j = some row ∧ row.spec = spec)
    (hturn : Turn c₂ pre x pre' e) (hx : Written c svc sourced r x) (j : Int) (row : RepoRow)
    (hrow : e.repos.get? j = some row) (hspec : row.spec = x.spec) : j = e.targetOf x := by
  by_cases hzero : x.id = 0
  · have hj : j ≠ 0 := by
      rcases (hturn.rows j row).mp hrow with ⟨p', hp', -, hprow⟩ | ⟨hrow₂, -⟩
      · obtain ⟨p, hp, hplaced⟩ := exists_of_mem_right hturn.placed hp'
        refine absurd ?_ (hturn.apart p hp)
        rw [← hplaced.spec, ← hspec, ← hprow]
        rfl
      · obtain ⟨old, hold, -⟩ := (hspecs j row.spec).mp ⟨row, hrow₂, rfl⟩
        exact Int.ne_of_gt (hc.ids j old hold)
    refine (targetOf_of_spec hzero ?_ hrow hspec hj).symm
    rw [hx.spec]
    exact (hwell r hx.leads.mem).spec
  · obtain ⟨own, hown, hownspec⟩ := hturn.fits.resolve_left hzero
    rw [targetOf_of_id hzero]
    exact spec_inj hrow hown (hspec.trans hownspec.symm)

/-- Where nothing stands in the way, each write is clear when its turn comes. -/
theorem clear_of_free (hsvc : c.Holds svc) (hfree : ¬Obstructed c svc sourced)
    (hstripped : Edited c { MembershipEdits.empty with deleted :=
      (MembershipEdits.ofDiff (planned c svc sourced) (atStake c svc sourced)).deleted } c₁)
    (hdeleted : Deleted c₁ (((planned c svc sourced).deleted.filter isOrphaned).map (·.id)) c₂)
    {x : Repo} {pre post pre' : List Repo}
    (hsplit : (stamp now (planned c svc sourced)).modified ++
      (stamp now (planned c svc sourced)).added = pre ++ x :: post)
    (hpre : SavedAll c₂ pre pre' e) : e.Clear x := by
  have hlisted : ∀ r ∈ sourced, r.ListedBy svc := fun r hr => (hwell r hr).toListedBy
  have hd := feasible_plan (c := c) hlisted
  have hspecs : ∀ j spec, (∃ row, c₂.repos.get? j = some row ∧ row.spec = spec) ↔
      ∃ row, c.repos.get? j = some row ∧ row.spec = spec :=
    fun j spec => spec_deleted hc hd hstripped hdeleted
  have hturn := turn hd hspecs hsplit hpre
  have hmem : ∀ p ∈ pre ++ x :: post, ∃ r, Written c svc sourced r p := by
    rw [← hsplit]
    exact fun p hp => written_of_mem hlisted hp
  obtain ⟨r, hx⟩ := hmem x (by simp)
  have htarget := target_of_turn hc hwell hspecs hturn hx
  refine ⟨?_, htarget, fun _ j row hrow hlive hname => ?_⟩
  · refine hturn.fits.imp_right ?_
    rintro ⟨own, hown, -⟩
    exact Option.isSome_iff_exists.mpr ⟨own, hown⟩
  · by_contra hj
    have hkey : row.nameKey = r.lowerName := by
      rw [hname, hx.name, lowerName_of_wellFormed (hwell r hx.leads.mem)]
    rcases (hturn.rows j row).mp hrow with ⟨p', hp', -, hprow⟩ | ⟨hrow₂, hlater⟩
    · obtain ⟨p, hp, hplaced⟩ := exists_of_mem_right hturn.placed hp'
      obtain ⟨r', hp₀⟩ := hmem p (List.mem_append_left _ hp)
      have hsame : r'.lowerName = r.lowerName := by
        rw [lowerName_of_wellFormed (hwell r' hp₀.leads.mem), ← hkey, ← hprow, ← hp₀.name]
        unfold RepoRow.nameKey Repo.row RepoRow.ofRepo
        rw [hplaced.same]
      refine hturn.apart p hp ?_
      rw [hp₀.spec, hp₀.leads.eq_of_name hx.leads hsame, hx.spec]
    · obtain ⟨hrow₀, hstays⟩ := (live_deleted hc hd hstripped hdeleted hlive).mp hrow₂
      have hother : row.spec ≠ r.spec := fun heq => hj (htarget j row hrow (heq.trans hx.spec.symm))
      exact hfree (obstructed_of_standing hc hwell hsvc hsplit hx hrow₀ hlive hkey hother hstays
        hlater)

/-- An obstacle still stands, and still has its row, when the turn of the winner comes. -/
theorem standing_of_obstacle {r : Repo} {j : Int} {row : RepoRow}
    (hobs : Obstacle c svc sourced r j row) {x : Repo} {pre post : List Repo}
    (hsplit : (stamp now (planned c svc sourced)).modified ++
      (stamp now (planned c svc sourced)).added = pre ++ x :: post)
    (hx : Written c svc sourced r x) :
    ¬Orphans (planned c svc sourced) j ∧ ∀ p ∈ pre, p.spec ≠ row.spec := by
  have hlisted : ∀ r ∈ sourced, r.ListedBy svc := fun r hr => (hwell r hr).toListedBy
  obtain ⟨-, hrow, hlive, hname, hother, hstands⟩ := hobs
  have hshows : c.Shows (c.view (j, row)) := ⟨row, hrow, hlive, rfl⟩
  cases hstands with
  | kept hheld hunlisted helsewhere =>
      obtain ⟨s, m, hs, hm⟩ := helsewhere
      constructor
      · refine not_orphans_kept hlisted hc hshows ?_ hunlisted hs hm
        exact Option.isSome_iff_exists.mpr hheld
      · intro p hp hspec
        obtain ⟨r', hp'⟩ := written_of_mem hlisted (x := p) (hsplit ▸ List.mem_append_left _ hp)
        exact hunlisted r' hp'.leads.mem (hp'.spec.symm.trans hspec)
  | @later y k own hwinner hspec hown hownlive hownspec hbefore =>
      obtain ⟨hleads, hwins⟩ := (winner_iff hwell).mp hwinner
      have hnews : ∀ old ∈ (stakeIn c svc.id sourced).stored, y.spec = old.spec →
          isNews old y = true := by
        intro old hold hsame
        have hview := (mem_stored.mp hold).1.eq_of_spec hshows (hsame.symm.trans hspec)
        rw [hview]
        exact isNews_of_rival hwell hx.leads hleads hspec hname hother
      obtain ⟨z, hz, hzw⟩ := exists_written hlisted now hleads hwins hnews
      have hzid := hzw.id_eq hrow hlive hspec.symm
      constructor
      · rintro ⟨p, hp, rfl, -⟩
        obtain ⟨q, hq, -, hqspec⟩ := hzw.planned
        exact spec_of_deleted (feasible_plan hlisted) hp hrow q hq (hqspec.trans hspec)
      · intro p hp hpspec
        have hxid := hx.id_eq hown hownlive hownspec
        have hapart := pairwise_stamped now (feasible_plan (c := c) hlisted)
        have horder := pairwise_precedes now hc hlisted
        rw [hsplit] at hz hapart horder
        have hpz : p = z :=
          eq_of_pairwise_spec hapart (List.mem_append_left _ hp) hz
            (hpspec.trans (hspec.symm.trans hzw.spec.symm))
        have hfirst := (List.pairwise_append.mp horder).2.2 p hp x List.mem_cons_self
        rcases hfirst with hzero | ⟨-, hearlier⟩
        · exact Int.ne_of_gt (hc.ids k own hown) (hxid.symm.trans hzero)
        · rw [hpz, hzid, hxid] at hearlier
          exact hbefore.asymm hearlier

/-- Where something stands in the way, some write fails. -/
theorem not_savedAll_of_obstructed (hobs : Obstructed c svc sourced)
    (hstripped : Edited c { MembershipEdits.empty with deleted :=
      (MembershipEdits.ofDiff (planned c svc sourced) (atStake c svc sourced)).deleted } c₁)
    (hdeleted : Deleted c₁ (((planned c svc sourced).deleted.filter isOrphaned).map (·.id)) c₂)
    {rs : List Repo} : ¬SavedAll c₂ ((stamp now (planned c svc sourced)).modified ++
      (stamp now (planned c svc sourced)).added) rs e := by
  intro hsaved
  have hlisted : ∀ r ∈ sourced, r.ListedBy svc := fun r hr => (hwell r hr).toListedBy
  have hd := feasible_plan (c := c) hlisted
  have hspecs : ∀ j spec, (∃ row, c₂.repos.get? j = some row ∧ row.spec = spec) ↔
      ∃ row, c.repos.get? j = some row ∧ row.spec = spec :=
    fun j spec => spec_deleted hc hd hstripped hdeleted
  obtain ⟨r, j, row, hobstacle⟩ := hobs
  have ⟨hwinner, hrow, hlive, hname, hother, _⟩ := hobstacle
  obtain ⟨hleads, hwins⟩ := (winner_iff hwell).mp hwinner
  have hnews := isNews_of_taken hwell hleads.mem hrow hlive hname hother
  obtain ⟨x, hx, hwritten⟩ := exists_written hlisted now hleads hwins hnews
  obtain ⟨pre, post, hsplit⟩ := List.append_of_mem hx
  obtain ⟨hstays, hlater⟩ := standing_of_obstacle hc hwell hobstacle hsplit hwritten
  rw [hsplit] at hsaved
  obtain ⟨pre', d, x', d', hpre, hxsaved⟩ := hsaved.split
  have hturn := turn hd hspecs hsplit hpre
  have hrow₂ := (live_deleted hc hd hstripped hdeleted hlive).mpr ⟨hrow, hstays⟩
  have hrowd : d.repos.get? j = some row := (hturn.rows j row).mpr (.inr ⟨hrow₂, hlater⟩)
  have hkey : row.nameKey = Text.Ascii.lower x.name := by
    rw [hname, hwritten.name, lowerName_of_wellFormed (hwell r hleads.mem)]
  have hj := hxsaved.ownName hwritten.live j row hrowd hlive hkey
  rw [hj] at hrowd
  exact hother (((hxsaved.placed hturn.fits).home row hrowd).trans hwritten.spec)

end

end Syncer

end RepoCatalog
