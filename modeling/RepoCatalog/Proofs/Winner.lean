import RepoCatalog.Proofs.LowerCase
import RepoCatalog.Proofs.Tidy

/-!
# Who wins a listing

An entry of a listing wins if it counts, leads its name, and is not held off by a smaller identity
that already has the name. What a service holds after a batch is what the winners say.
-/
namespace RepoCatalog

open Catalog

/-- A repository as a proper source lists it. -/
structure Repo.WellFormed (svc : Service) (r : Repo) : Prop extends r.ListedBy svc where
  spec : r.spec.isEmpty = false
  name : Text.IsAscii r.name

/-- What a service says of a repository. -/
structure Face where
  spec : Spec
  name : String
  uri : String
  description : String
  isFork : Bool
  isArchived : Bool
  isPrivate : Bool
  cloneUrl : String
deriving DecidableEq

def RepoRow.face (row : RepoRow) (cloneUrl : String) : Face :=
  ⟨row.spec, row.name, row.uri, row.description, row.isFork, row.isArchived, row.isPrivate,
    cloneUrl⟩

theorem RepoRow.face_congr {a b : RepoRow} {u v : String} (h : a.face u = b.face v)
    (cloneUrl : String) : a.face cloneUrl = b.face cloneUrl :=
  congrArg (fun f => { f with cloneUrl := cloneUrl }) h

theorem Repo.Same.face {a n : Repo} (h : a.Same n) (hspec : a.spec = n.spec) (cloneUrl : String) :
    a.row.face cloneUrl = n.row.face cloneUrl := by
  simp only [RepoRow.face, Repo.row, RepoRow.ofRepo, Face.mk.injEq, and_true]
  exact ⟨hspec, h.name, h.uri, h.description, h.isFork, h.isArchived, h.isPrivate⟩

/-- What an entry of a listing says. -/
def Repo.faceFor (r : Repo) (svc : Service) : Option Face :=
  (r.claims.get? svc.urn).map fun claim => r.row.face claim.cloneUrl

/-- What a service offers: its memberships together with their live rows. -/
def Catalog.Offers (c : Catalog) (svc : Service) (f : Face) : Prop :=
  ∃ j row m, c.repos.get? j = some row ∧ row.isLive = true ∧
    c.members.get? ⟨j, svc.id⟩ = some m ∧ f = row.face m.cloneUrl

namespace Syncer

variable {c e : Catalog} {svc : Service} {sourced : List Repo}

/-- An entry that leads its name, whose name no live row of a smaller identity has, unless the
service holds that row or lists its identity. -/
structure Winner (c : Catalog) (svc : Service) (sourced : List Repo) (r : Repo) : Prop where
  leads : Leads sourced r
  free : ∀ j row, c.repos.get? j = some row → row.isLive = true → row.nameKey = r.lowerName →
    row.spec < r.spec →
      (∃ m, c.members.get? ⟨j, svc.id⟩ = some m) ∨ ∃ x ∈ sourced, x.spec = row.spec

theorem lowerName_of_wellFormed {r : Repo} (h : r.WellFormed svc) :
    r.lowerName = Text.Ascii.lower r.name :=
  Text.lowerCase_of_ascii h.name

theorem isHeld_eq_false_iff {service repo : Int} :
    c.isHeld service repo = false ↔ ¬∃ m, c.members.get? ⟨repo, service⟩ = some m := by
  unfold isHeld
  rw [Option.isSome_eq_false_iff, Option.isNone_iff_eq_none, Option.eq_none_iff_forall_ne_some,
    not_exists]

theorem lowerName_of_conflicting (hnames : ∀ r ∈ sourced, Text.IsAscii r.name) {h : Repo}
    (hh : h ∈ (stakeIn c svc.id sourced).conflicting) :
    h.lowerName = Text.Ascii.lower h.name := by
  obtain ⟨-, -, -, x, hx, hname⟩ := mem_conflicting.mp hh
  refine Text.lowerCase_eq_lower ?_
  rw [← hname, Repo.lowerName, Text.lowerCase_of_ascii (hnames x hx)]
  exact Text.Ascii.isAscii_lower.mpr (hnames x hx)

theorem winner_iff (hwell : ∀ r ∈ sourced, r.WellFormed svc) {r : Repo} :
    Winner c svc sourced r ↔
      Leads sourced r ∧ wins (stakeIn c svc.id sourced).conflicting r = true := by
  have hnames := fun r hr => (hwell r hr).name
  constructor
  · rintro ⟨hleads, hfree⟩
    refine ⟨hleads, wins_iff.mpr fun h hh hname hne => ?_⟩
    obtain ⟨hshows, hunheld, hunlisted, -⟩ := mem_conflicting.mp hh
    obtain ⟨row, hrow, hlive, hview⟩ := hshows
    have hspec : row.spec = h.spec := by
      rw [hview]
      rfl
    have hkey : row.nameKey = r.lowerName := by
      rw [← hname, lowerName_of_conflicting hnames hh, hview]
      rfl
    by_contra hnlt
    have hlt : h.spec < r.spec := (Spec.lt_or_gt_of_ne hne).resolve_right hnlt
    rcases hfree h.id row hrow hlive hkey (hspec ▸ hlt) with hheld | ⟨x, hx, hxs⟩
    · exact isHeld_eq_false_iff.mp hunheld hheld
    · exact hunlisted x hx (hxs.trans hspec)
  · rintro ⟨hleads, hwins⟩
    refine ⟨hleads, fun j row hrow hlive hkey hlt => ?_⟩
    by_contra hno
    rw [not_or] at hno
    have hshows : c.Shows (c.view (j, row)) := ⟨row, hrow, hlive, rfl⟩
    have hconflicting : c.view (j, row) ∈ (stakeIn c svc.id sourced).conflicting := by
      exact mem_conflicting.mpr ⟨hshows, isHeld_eq_false_iff.mpr hno.1,
        fun x hx hxs => hno.2 ⟨x, hx, hxs⟩, r, hleads.mem, hkey.symm⟩
    have hname := (lowerName_of_conflicting hnames hconflicting).trans hkey
    have hne : row.spec ≠ r.spec := Spec.ne_of_lt hlt
    have hspec : (c.view (j, row)).spec = row.spec := rfl
    have hgt := wins_iff.mp hwins _ hconflicting hname (hspec ▸ hne)
    rw [hspec] at hgt
    exact Spec.lt_asymm hlt hgt

section

variable (hlisted : ∀ r ∈ sourced, r.ListedBy svc)
include hlisted

/-- What is written: winning entries, brought together with what is stored under their identity if
they say anything new. -/
theorem mem_plan_written {x : Repo} :
    (x ∈ (planned c svc sourced).modified ++ (planned c svc sourced).added) ↔
    ∃ r, Leads sourced r ∧ wins (stakeIn c svc.id sourced).conflicting r = true ∧
      ((∃ old ∈ (stakeIn c svc.id sourced).stored, r.spec = old.spec ∧ isNews old r = true ∧
          x = updated old r) ∨
        ((∀ old ∈ (stakeIn c svc.id sourced).stored, old.spec ≠ r.spec) ∧ x = r)) := by
  obtain ⟨dropped, hres⟩ := planned_resolved c svc sourced
  rw [hres.modified, hres.added, List.mem_append, List.mem_filter, List.mem_filter,
    mem_compared_modified hlisted, mem_compared_added hlisted]
  constructor
  · rintro (⟨⟨old, hold, r, hleads, hspec, hnews, rfl⟩, hwins⟩ | ⟨⟨hleads, hfresh⟩, hwins⟩)
    · rw [wins_updated _ hspec] at hwins
      exact ⟨r, hleads, hwins, .inl ⟨old, hold, hspec, hnews, rfl⟩⟩
    · exact ⟨x, hleads, hwins, .inr ⟨hfresh, rfl⟩⟩
  · rintro ⟨r, hleads, hwins, ⟨old, hold, hspec, hnews, rfl⟩ | ⟨hfresh, rfl⟩⟩
    · refine .inl ⟨⟨old, hold, r, hleads, hspec, hnews, rfl⟩, ?_⟩
      rw [wins_updated _ hspec]
      exact hwins
    · exact .inr ⟨⟨hleads, hfresh⟩, hwins⟩

theorem exists_deleted {old : Repo} (hold : old ∈ (stakeIn c svc.id sourced).stored)
    (hid : old.id ≠ 0) (hno : ∀ r, Leads sourced r → r.spec = old.spec → isNews old r = true ∧
      wins (stakeIn c svc.id sourced).conflicting r = false) :
    ∃ x ∈ (planned c svc sourced).deleted, x.spec = old.spec := by
  obtain ⟨dropped, hres⟩ := planned_resolved c svc sourced
  by_cases hleader : ∃ r, Leads sourced r ∧ r.spec = old.spec
  · obtain ⟨r, hleads, hspec⟩ := hleader
    obtain ⟨hnews, hloses⟩ := hno r hleads hspec
    have hmem : updated old r ∈ (compared c svc sourced).modified :=
      (mem_compared_modified hlisted).mpr ⟨old, hold, r, hleads, hspec, hnews, rfl⟩
    rw [← wins_updated _ hspec] at hloses
    obtain ⟨x, hx, hxspec⟩ := hres.lost _ (List.mem_append_right _ hmem) hloses hid
    exact ⟨x, hx, hxspec.trans ((spec_updated hspec).trans hspec)⟩
  · have hnone : ∀ r, Leads sourced r → r.spec ≠ old.spec :=
      fun r hleads hspec => hleader ⟨r, hleads, hspec⟩
    by_cases hfirst : first? sourced old.spec = none
    · have hmem : { old with claims := old.claims.erase svc.urn } ∈
          (compared c svc sourced).deleted :=
        (mem_compared_deleted hlisted).mpr ⟨old, hold, hnone, .inl ⟨hfirst, rfl⟩⟩
      rw [hres.deleted]
      exact ⟨_, List.mem_append_left _ hmem, rfl⟩
    · have hmem : old.unclaimed ∈ (compared c svc sourced).deleted :=
        (mem_compared_deleted hlisted).mpr ⟨old, hold, hnone, .inr ⟨hfirst, rfl⟩⟩
      rw [hres.deleted]
      exact ⟨_, List.mem_append_left _ hmem, rfl⟩

theorem not_deleted_of_repeated {old r : Repo} (hold : c.Shows old)
    (hheld : c.isHeld svc.id old.id = true) (hleads : Leads sourced r) (hspec : r.spec = old.spec)
    (hnews : isNews old r = false) :
    ∀ x ∈ (planned c svc sourced).deleted, x.spec ≠ old.spec := by
  intro x hx hxspec
  rcases planned_deleted_cases hx with hx | ⟨z, ⟨r', -, hrival, -⟩ | ⟨hz, hid, -⟩, rfl⟩
  · obtain ⟨z, -, hnone, ⟨-, rfl⟩ | ⟨-, rfl⟩⟩ := (mem_compared_deleted hlisted).mp hx
    · exact hnone r hleads (hspec.trans hxspec.symm)
    · exact hnone r hleads (hspec.trans hxspec.symm)
  · obtain ⟨hshows, hunheld, -⟩ := mem_conflicting.mp (mem_rivalsOf.mp hrival).1
    rw [hshows.eq_of_spec hold hxspec, hheld] at hunheld
    cases hunheld
  · rcases List.mem_append.mp hz with hz | hz
    · exact hid (hlisted z ((mem_compared_added hlisted).mp hz).1.mem).id
    · obtain ⟨old', hold', r', hleads', hspec', hnews', rfl⟩ :=
        (mem_compared_modified hlisted).mp hz
      have hsame : (updated old' r').spec = old.spec := hxspec
      rw [spec_updated hspec'] at hsame
      rw [hleads'.eq_of_spec hleads (hsame.trans hspec.symm),
        (mem_stored.mp hold').1.eq_of_spec hold (hspec'.symm.trans hsame), hnews] at hnews'
      cases hnews'

end

theorem face_of_brought {x w : Repo} (h : Brought c e svc x w) (cloneUrl : String) :
    w.row.face cloneUrl = x.row.face cloneUrl := by
  rw [Placed.same h.landed]
  rfl

theorem face_updated {old r : Repo} (hspec : r.spec = old.spec) (cloneUrl : String) :
    (updated old r).row.face cloneUrl = r.row.face cloneUrl := by
  have hface : (updated old r).row.face cloneUrl =
      { r.row.face cloneUrl with spec := (updated old r).spec } := rfl
  rw [hface, spec_updated hspec]
  rfl

theorem get?_claims_updated {old r : Repo} (h : r.ListedBy svc) :
    (updated old r).claims.get? svc.urn = r.claims.get? svc.urn := by
  obtain ⟨url, hclaims⟩ := h.claims
  have hboth : (updated old r).claims = r.claims.union old.claims := rfl
  rw [hboth, Dict.get?_union, hclaims, Claims.get?_solo, if_pos rfl, Option.some_or]

theorem face_written (hlisted : ∀ r ∈ sourced, r.ListedBy svc) {x r : Repo}
    (hleads : Leads sourced r)
    (hx : (∃ old ∈ (stakeIn c svc.id sourced).stored, r.spec = old.spec ∧ isNews old r = true ∧
        x = updated old r) ∨
      ((∀ old ∈ (stakeIn c svc.id sourced).stored, old.spec ≠ r.spec) ∧ x = r)) :
    x.spec = r.spec ∧ x.claims.get? svc.urn = r.claims.get? svc.urn ∧
      ∀ cloneUrl, x.row.face cloneUrl = r.row.face cloneUrl := by
  rcases hx with ⟨old, -, hspec, -, rfl⟩ | ⟨-, rfl⟩
  · exact ⟨spec_updated hspec, get?_claims_updated (hlisted r hleads.mem), face_updated hspec⟩
  · exact ⟨rfl, rfl, fun _ => rfl⟩

theorem repeated {old r : Repo} (h : isNews old r = false) :
    old.Same { r with claims := r.claims.union old.claims } :=
  Repo.same_of_differs h

theorem face_repeated {row : RepoRow} {j : Int} {r : Repo} (hspec : r.spec = row.spec)
    (h : isNews (c.view (j, row)) r = false) (cloneUrl : String) :
    row.face cloneUrl = r.row.face cloneUrl :=
  (repeated h).face hspec.symm cloneUrl

theorem member_repeated (hsvc : c.Holds svc) {old r : Repo} (hold : c.Shows old)
    (hlisted : r.ListedBy svc) (h : isNews old r = false) : ∃ claim m,
      r.claims.get? svc.urn = some claim ∧ c.members.get? ⟨old.id, svc.id⟩ = some m ∧
        m.cloneUrl = claim.cloneUrl := by
  obtain ⟨url, hclaims⟩ := hlisted.claims
  have hsame := (repeated h).claims
  have hown : old.claims.get? svc.urn = some ⟨svc.urn, url⟩ := by
    rw [hsame, Dict.get?_union, hclaims, Claims.get?_solo, if_pos rfl, Option.some_or]
  obtain ⟨m, hm, heq⟩ := (hold.get?_own hsvc).mp hown
  refine ⟨⟨svc.urn, url⟩, m, ?_, hm, ?_⟩
  · rw [hclaims, Claims.get?_solo, if_pos rfl]
  · rw [heq]

theorem id_eq_iff_of_deleted {previous : List Repo} {d : Diff} (hd : Feasible c svc previous d)
    {x old : Repo} (hx : x ∈ d.deleted) (hold : c.Shows old) :
    x.id = old.id ↔ x.spec = old.spec := by
  obtain ⟨z, hz, hid, hspec, -⟩ := hd.deleted x hx
  rw [hid, hspec]
  constructor
  · intro heq
    rw [(hd.shown z hz).eq_of_id hold heq]
  · intro heq
    rw [(hd.shown z hz).eq_of_spec hold heq]

section

variable (hlisted : ∀ r ∈ sourced, r.ListedBy svc)
include hlisted

theorem offers_of_written (h : Batched c svc (planned c svc sourced) e) {r x : Repo}
    (hleads : Leads sourced r) (hwins : wins (stakeIn c svc.id sourced).conflicting r = true)
    (hx : (∃ old ∈ (stakeIn c svc.id sourced).stored, r.spec = old.spec ∧ isNews old r = true ∧
        x = updated old r) ∨
      ((∀ old ∈ (stakeIn c svc.id sourced).stored, old.spec ≠ r.spec) ∧ x = r)) {claim : Claim}
    (hclaim : r.claims.get? svc.urn = some claim) : e.Offers svc (r.row.face claim.cloneUrl) := by
  obtain ⟨w, hw⟩ := h.written x ((mem_plan_written hlisted).mpr ⟨r, hleads, hwins, hx⟩)
  obtain ⟨-, hsame, hface⟩ := face_written hlisted hleads hx
  obtain ⟨claim', m, hclaim', hm, hurl⟩ := hw.claim
  cases hclaim'.symm.trans (hsame.trans hclaim)
  refine ⟨w.id, w.row, m, hw.row, hw.landed.isLive, hm, ?_⟩
  rw [hurl, face_of_brought hw, hface]

theorem offers_of_repeated (hsvc : c.Holds svc) (h : Batched c svc (planned c svc sourced) e)
    {r old : Repo} (hleads : Leads sourced r) (hold : old ∈ (stakeIn c svc.id sourced).stored)
    (hspec : old.spec = r.spec) (hnews : isNews old r = false) {claim : Claim}
    (hclaim : r.claims.get? svc.urn = some claim) : e.Offers svc (r.row.face claim.cloneUrl) := by
  have hshows := (mem_stored.mp hold).1
  obtain ⟨claim', m, hclaim', hm, hurl⟩ := member_repeated hsvc hshows (hlisted r hleads.mem) hnews
  cases hclaim'.symm.trans hclaim
  obtain ⟨row, hrow, hlive, hview⟩ := id hshows
  have hrowspec : row.spec = old.spec := by
    rw [hview]
    rfl
  have hunwritten : ∀ x ∈ (planned c svc sourced).modified ++ (planned c svc sourced).added,
      x.spec ≠ row.spec := by
    intro x hx hxspec
    obtain ⟨r', hleads', -, hx'⟩ := (mem_plan_written hlisted).mp hx
    rw [(face_written hlisted hleads' hx').1, hrowspec, hspec] at hxspec
    rw [hleads'.eq_of_spec hleads hxspec] at hx'
    rcases hx' with ⟨old', hold', hspec', hnews', -⟩ | ⟨hfresh', -⟩
    · rw [stored_inj c svc.id sourced old' hold' old hold (hspec'.symm.trans hspec.symm),
        hnews] at hnews'
      cases hnews'
    · exact hfresh' old hold hspec
  have hheld : c.isHeld svc.id old.id = true := Option.isSome_iff_exists.mpr ⟨m, hm⟩
  have hkept : ∀ x ∈ (planned c svc sourced).deleted, x.id ≠ old.id := by
    intro x hx hid
    have hxspec := (id_eq_iff_of_deleted (feasible_plan hlisted) hx hshows).mp hid
    exact not_deleted_of_repeated hlisted hshows hheld hleads hspec.symm hnews x hx hxspec
  obtain ⟨hrow', hmembers⟩ := h.standing old.id row hrow hunwritten
    fun ⟨x, hx, hid, _⟩ => hkept x hx hid
  have hm' := (hmembers svc.id).2 fun ⟨x, hx, hid, _⟩ => hkept x hx hid
  refine ⟨old.id, row, m, hrow', hlive, hm'.trans hm, ?_⟩
  rw [hview] at hnews
  rw [hurl, face_repeated (hspec.symm.trans hrowspec.symm) hnews]

/-- A leading entry that keeps its name against all holders is offered. -/
theorem offers_of_leader (hsvc : c.Holds svc) (h : Batched c svc (planned c svc sourced) e)
    {r : Repo} (hleads : Leads sourced r)
    (hwins : wins (stakeIn c svc.id sourced).conflicting r = true) {f : Face}
    (hf : r.faceFor svc = some f) : e.Offers svc f := by
  obtain ⟨claim, hclaim, rfl⟩ := Option.map_eq_some_iff.mp hf
  by_cases hfresh : ∀ old ∈ (stakeIn c svc.id sourced).stored, old.spec ≠ r.spec
  · exact offers_of_written hlisted h hleads hwins (.inr ⟨hfresh, rfl⟩) hclaim
  · obtain ⟨old, hold, hspec⟩ : ∃ old ∈ (stakeIn c svc.id sourced).stored, old.spec = r.spec := by
      by_contra hno
      exact hfresh fun old hold hspec => hno ⟨old, hold, hspec⟩
    by_cases hnews : isNews old r = true
    · exact offers_of_written hlisted h hleads hwins (.inl ⟨old, hold, hspec.symm, hnews, rfl⟩)
        hclaim
    · exact offers_of_repeated hlisted hsvc h hleads hold hspec (Bool.eq_false_iff.mpr hnews) hclaim

theorem exists_repeated (hc : c.Rooted) {j : Int} {row : RepoRow} (hrow : c.repos.get? j = some row)
    (hstored : c.view (j, row) ∈ (stakeIn c svc.id sourced).stored)
    (hunwritten : ∀ x ∈ (planned c svc sourced).modified ++ (planned c svc sourced).added,
      x.spec ≠ row.spec)
    (hstays : ¬Goes svc (planned c svc sourced) ⟨j, svc.id⟩) :
    ∃ r, Leads sourced r ∧ r.spec = row.spec ∧ isNews (c.view (j, row)) r = false := by
  by_contra hno
  have hlost : ∀ r, Leads sourced r → r.spec = row.spec → isNews (c.view (j, row)) r = true ∧
      wins (stakeIn c svc.id sourced).conflicting r = false := by
    intro r hleads hspec
    have hnews : isNews (c.view (j, row)) r = true := by
      by_contra hfalse
      exact hno ⟨r, hleads, hspec, Bool.eq_false_iff.mpr hfalse⟩
    refine ⟨hnews, ?_⟩
    rw [← Bool.not_eq_true]
    intro hwins
    refine hunwritten (updated (c.view (j, row)) r) ?_ ((spec_updated hspec).trans hspec)
    exact (mem_plan_written hlisted).mpr
      ⟨r, hleads, hwins, .inl ⟨_, hstored, hspec, hnews, rfl⟩⟩
  obtain ⟨x, hx, hxspec⟩ :=
    exists_deleted hlisted hstored (Int.ne_of_gt (hc.ids j row hrow)) hlost
  have hid := (id_eq_iff_of_deleted (feasible_plan hlisted) hx (mem_stored.mp hstored).1).mpr hxspec
  exact hstays ⟨x, hx, hid, .inr rfl⟩

end

section

variable (hsvc : c.Holds svc) (hwell : ∀ r ∈ sourced, r.WellFormed svc)
  (h : Batched c svc (planned c svc sourced) e)
include hsvc hwell h

theorem offers_of_winner {r : Repo} (hwinner : Winner c svc sourced r) {f : Face}
    (hf : r.faceFor svc = some f) : e.Offers svc f := by
  obtain ⟨hleads, hwins⟩ := (winner_iff hwell).mp hwinner
  exact offers_of_leader (fun r hr => (hwell r hr).toListedBy) hsvc h hleads hwins hf

theorem winner_of_offers (hc : c.Rooted) {f : Face} (hf : e.Offers svc f) :
    ∃ r, Winner c svc sourced r ∧ r.faceFor svc = some f := by
  have hlisted := fun r hr => (hwell r hr).toListedBy
  obtain ⟨j, row, m, hrow, hlive, hm, rfl⟩ := hf
  unfold Repo.faceFor
  -- The row was either written or stood before the pass; of those only what is repeated is left.
  rcases h.origin j row hrow with ⟨x, hx, w, hw, rfl⟩ | ⟨old, hold, hunwritten⟩
  · obtain ⟨r, hleads, hwins, hx'⟩ := (mem_plan_written hlisted).mp hx
    obtain ⟨-, hsame, hface⟩ := face_written hlisted hleads hx'
    obtain ⟨claim, m', hclaim, hm', hurl⟩ := hw.claim
    cases hrow.symm.trans hw.row
    cases hm.symm.trans hm'
    refine ⟨r, (winner_iff hwell).mpr ⟨hleads, hwins⟩, ?_⟩
    rw [← hsame, hclaim, Option.map_some, hurl, face_of_brought hw, hface]
  · by_cases horphan : Orphans (planned c svc sourced) j
    · obtain ⟨⟨row', hrow', hdead, -⟩, -⟩ := h.orphaned j old hold horphan
      cases hrow.symm.trans hrow'
      rw [hdead] at hlive
      cases hlive
    · obtain ⟨hrow', hmembers⟩ := h.standing j old hold hunwritten horphan
      cases hrow.symm.trans hrow'
      have hstays : ¬Goes svc (planned c svc sourced) ⟨j, svc.id⟩ := by
        intro hgoes
        rw [(hmembers svc.id).1 hgoes] at hm
        cases hm
      rw [(hmembers svc.id).2 hstays] at hm
      have hshows : c.Shows (c.view (j, row)) := ⟨row, hold, hlive, rfl⟩
      have hstored : c.view (j, row) ∈ (stakeIn c svc.id sourced).stored :=
        mem_stored.mpr ⟨hshows, .inl (Option.isSome_iff_exists.mpr ⟨m, hm⟩)⟩
      obtain ⟨r, hleads, hspec, hnews⟩ := exists_repeated hlisted hc hold hstored hunwritten hstays
      obtain ⟨claim, m', hclaim, hm', hurl⟩ :=
        member_repeated hsvc hshows (hlisted r hleads.mem) hnews
      cases hm.symm.trans hm'
      refine ⟨r, ⟨hleads, fun k row' hrow' hlive' hkey _ => ?_⟩, ?_⟩
      · have hname : row.nameKey = r.lowerName := by
          rw [lowerName_of_wellFormed (hwell r hleads.mem), ← (repeated hnews).name]
          rfl
        rw [nameKey_inj hrow' hold hlive' hlive (hkey.trans hname.symm)]
        exact .inl ⟨m, hm⟩
      · rw [hclaim, Option.map_some, hurl, face_repeated hspec hnews]

end

end Syncer

end RepoCatalog
