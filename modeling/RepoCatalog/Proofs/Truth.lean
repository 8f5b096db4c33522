import RepoCatalog.Proofs.Reach

/-!
# Differences that are true

A difference is computed before anything is written, and afterwards only ids and times are filled
in. It is true all the same of the catalog that its writes leave: what it tells of as added,
modified or unmodified stands there as told, what it tells of as deleted is gone, or is still held
by exactly those whose claims are told, and nothing is told of twice.
-/
namespace RepoCatalog

open Step
open Time (Instant Duration)

/-- A repository without the times of its creation and of its last update. -/
def Repo.undated (r : Repo) : Repo :=
  { r with createdAt := none, updatedAt := none }

namespace Catalog

variable {c d : Catalog} {svc : Service} {j : Int} {x z : Repo}

theorem claimsOn_congr (hkinds : ∀ s, d.kindOf? s = c.kindOf? s)
    (hmembers : ∀ s, d.members.get? ⟨j, s⟩ = c.members.get? ⟨j, s⟩) :
    d.claimsOn j = c.claimsOn j := by
  refine Dict.ext_get? fun urn => Option.ext fun claim => ?_
  simp only [get?_claimsOn, hkinds, hmembers]

theorem claimsOn_eq_empty (h : ∀ s, c.members.get? ⟨j, s⟩ = none) : c.claimsOn j = ∅ := by
  refine Dict.ext_get? fun urn => ?_
  rw [Dict.get?_empty, Option.eq_none_iff_forall_ne_some]
  intro claim hclaim
  obtain ⟨s, m, kind, hm, -⟩ := get?_claimsOn.mp hclaim
  cases (h s).symm.trans hm

theorem Tidy.claimsOn_eq_empty (hc : c.Tidy)
    (h : ∀ row, c.repos.get? j = some row → ¬row.isLive = true) : c.claimsOn j = ∅ := by
  refine Catalog.claimsOn_eq_empty fun s => Option.eq_none_iff_forall_ne_some.mpr fun m hm => ?_
  obtain ⟨row, hrow⟩ := repo_of_member hm
  exact h row hrow ((hc.claimed j row hrow).mpr ⟨s, m, hm⟩)

theorem claimsOn_held (hsvc : c.Holds svc) (hkinds : ∀ s, d.kindOf? s = c.kindOf? s)
    {m : Membership} (hown : d.members.get? ⟨j, svc.id⟩ = some m)
    (hothers : ∀ s, s ≠ svc.id → d.members.get? ⟨j, s⟩ = c.members.get? ⟨j, s⟩) :
    d.claimsOn j = (Claims.solo svc.urn m.cloneUrl).union (c.claimsOn j) := by
  refine Dict.ext_get? fun urn => ?_
  rw [Dict.get?_union, Claims.get?_solo]
  by_cases hurn : urn = svc.urn
  · rw [if_pos hurn, Option.some_or, get?_claimsOn]
    exact ⟨svc.id, m, svc.kind, hown, (hkinds _).trans hsvc.kindOf?, hurn, by rw [hurn]⟩
  · rw [if_neg hurn, Option.none_or]
    refine Option.ext fun claim => ?_
    have hother : ∀ s kind, c.kindOf? s = some kind → urn = Urn.format kind s → s ≠ svc.id := by
      rintro s kind hkind hname rfl
      cases hkind.symm.trans hsvc.kindOf?
      exact hurn hname
    simp only [get?_claimsOn, hkinds]
    constructor
    · rintro ⟨s, m', kind, hm, hkind, hname, hclaim⟩
      rw [hothers s (hother s kind hkind hname)] at hm
      exact ⟨s, m', kind, hm, hkind, hname, hclaim⟩
    · rintro ⟨s, m', kind, hm, hkind, hname, hclaim⟩
      rw [← hothers s (hother s kind hkind hname)] at hm
      exact ⟨s, m', kind, hm, hkind, hname, hclaim⟩

theorem claimsOn_released (hsvc : c.Holds svc) (hkinds : ∀ s, d.kindOf? s = c.kindOf? s)
    (hown : d.members.get? ⟨j, svc.id⟩ = none)
    (hothers : ∀ s, s ≠ svc.id → d.members.get? ⟨j, s⟩ = c.members.get? ⟨j, s⟩) :
    d.claimsOn j = (c.claimsOn j).erase svc.urn := by
  refine Dict.ext_get? fun urn => Option.ext fun claim => ?_
  rw [Dict.get?_erase, get?_claimsOn]
  simp only [hkinds]
  constructor
  · rintro ⟨s, m, kind, hm, hkind, hname, hclaim⟩
    have hs : s ≠ svc.id := by
      rintro rfl
      cases hown.symm.trans hm
    rw [if_neg (hname ▸ urn_ne_of_service_ne hs)]
    exact get?_claimsOn.mpr ⟨s, m, kind, (hothers s hs).symm.trans hm, hkind, hname, hclaim⟩
  · intro hclaim
    split at hclaim
    · cases hclaim
    · rename_i hurn
      obtain ⟨s, m, kind, hm, hkind, hname, hclaim⟩ := get?_claimsOn.mp hclaim
      have hs : s ≠ svc.id := by
        rintro rfl
        cases hkind.symm.trans hsvc.kindOf?
        exact hurn hname
      exact ⟨s, m, kind, (hothers s hs).trans hm, hkind, hname, hclaim⟩

theorem SameSetting.kindOf? (h : SameSetting c d) (s : Int) : d.kindOf? s = c.kindOf? s := by
  unfold Catalog.kindOf?
  rw [h.services]

theorem kindOf?_changeService {id : Int} {f : ServiceRow → ServiceRow} {u : Unit}
    (h : c.changeService id f = .ok (u, d)) (hkind : ∀ row, c.services.get? id = some row →
      Kind.ofName? (f row).kindName = Kind.ofName? row.kindName) (s : Int) :
    d.kindOf? s = c.kindOf? s := by
  unfold changeService at h
  split at h
  · cases h
  · rename_i row hrow
    split at h
    · cases h
      unfold Catalog.kindOf?
      simp only [Table.get?_modify]
      split
      · rename_i hs
        rw [hs, hrow, Option.map_some, Option.bind_some, Option.bind_some, hkind row hrow]
      · rfl
    · cases h

theorem Deleted.gone {ids : List Int} {row : RepoRow} (h : Deleted c ids d) (hj : j ∈ ids)
    (hrow : c.repos.get? j = some row) :
    (∃ row', d.repos.get? j = some row') ∧ ∀ s, d.members.get? ⟨j, s⟩ = none := by
  obtain ⟨now, hrepos⟩ := h.repos
  refine ⟨⟨_, (hrepos j).trans (congrArg _ hrow)⟩, fun s => ?_⟩
  rw [h.members, if_pos hj]

/-- The claims are the memberships of a row, each under the name of its service. -/
structure Claimed (c : Catalog) (j : Int) (claims : Claims) : Prop where
  member : ∀ urn claim, claims.get? urn = some claim → ∃ s m kind,
    c.members.get? ⟨j, s⟩ = some m ∧ c.kindOf? s = some kind ∧ urn = Urn.format kind s ∧
      claim = ⟨urn, m.cloneUrl⟩
  claim : ∀ s m, c.members.get? ⟨j, s⟩ = some m → ∃ kind, c.kindOf? s = some kind ∧
    claims.get? (Urn.format kind s) = some ⟨Urn.format kind s, m.cloneUrl⟩

theorem Furnished.claimed (hc : c.Furnished) (j : Int) : c.Claimed j (c.claimsOn j) := by
  refine ⟨fun urn claim h => get?_claimsOn.mp h, fun s m hm => ?_⟩
  obtain ⟨kind, hkind⟩ := hc.kindOf?_isSome hm
  exact ⟨kind, hkind, get?_claimsOn.mpr ⟨s, m, kind, hm, hkind, rfl, rfl⟩⟩

theorem Claimed.eq_empty_iff {claims : Claims} (h : c.Claimed j claims) :
    claims = ∅ ↔ ∀ s, c.members.get? ⟨j, s⟩ = none := by
  constructor
  · rintro rfl s
    rw [Option.eq_none_iff_forall_ne_some]
    intro m hm
    obtain ⟨kind, -, hclaim⟩ := h.claim s m hm
    cases hclaim
  · intro hnone
    refine Dict.ext_get? fun urn => ?_
    rw [Dict.get?_empty, Option.eq_none_iff_forall_ne_some]
    intro claim hclaim
    obtain ⟨s, m, kind, hm, -⟩ := h.member urn claim hclaim
    cases (hnone s).symm.trans hm

/-- A repository says what is stored in the row of its id; only the times of creation and of the
last update may differ. -/
def Reads (c : Catalog) (x : Repo) : Prop :=
  ∃ row, c.repos.get? x.id = some row ∧ x.undated = (c.view (x.id, row)).undated

theorem Reads.of_undated (h : c.Reads x) (hz : z.undated = x.undated) : c.Reads z := by
  obtain ⟨row, hrow, hx⟩ := h
  have hid := congrArg Repo.id hz
  change z.id = x.id at hid
  refine ⟨row, ?_, ?_⟩
  · rw [hid]
    exact hrow
  · rw [hid]
    exact hz.trans hx

theorem reads_of_row (hrow : c.repos.get? x.id = some x.row)
    (hclaims : x.claims = c.claimsOn x.id) : c.Reads x := by
  refine ⟨x.row, hrow, ?_⟩
  change x.undated = ({ x with claims := c.claimsOn x.id } : Repo).undated
  rw [← hclaims]

theorem Reads.claims (h : c.Reads x) : x.claims = c.claimsOn x.id := by
  obtain ⟨row, -, hx⟩ := h
  exact congrArg Repo.claims hx

theorem Reads.spec (h : c.Reads x) : ∃ row, c.repos.get? x.id = some row ∧ row.spec = x.spec := by
  obtain ⟨row, hrow, hx⟩ := h
  exact ⟨row, hrow, (congrArg Repo.spec hx).symm⟩

theorem Shows.reads (h : c.Shows x) : x.deletedAt = none ∧ c.Reads x := by
  obtain ⟨row, hrow, hlive, hview⟩ := h
  refine ⟨?_, row, hrow, congrArg Repo.undated hview⟩
  rw [hview]
  exact Option.isNone_iff_eq_none.mp hlive

end Catalog

/-- What a difference tells of is so: what it adds, modifies or leaves alone is a live row that says
the same and is held by those who claim it; what it deletes is a tombstone that nobody holds or, as
far as claims are left, a live row that the claimants hold and nobody else; and it tells of no id
twice. -/
structure Diff.TrueOf (d : Diff) (c : Catalog) : Prop where
  standing : ∀ x ∈ d.added ++ d.modified ++ d.unmodified, x.id ≠ 0 ∧ x.deletedAt = none ∧
    c.Reads x ∧ c.Claimed x.id x.claims
  gone : ∀ x ∈ d.deleted, x.claims = ∅ →
    (∃ row, c.repos.get? x.id = some row ∧ row.isLive = false) ∧
      ∀ s, c.members.get? ⟨x.id, s⟩ = none
  kept : ∀ x ∈ d.deleted, x.claims ≠ ∅ →
    (∃ row, c.repos.get? x.id = some row ∧ row.isLive = true) ∧ c.Claimed x.id x.claims
  once : (d.repos.map (·.id)).Nodup

namespace Diff

variable {c : Catalog} {d : Diff}

/-- In a tidy catalog it is enough that rows say what is told and that claims are memberships. -/
theorem TrueOf.of_tidy (hc : c.Tidy)
    (hstanding : ∀ x ∈ d.added ++ d.modified ++ d.unmodified, x.deletedAt = none ∧ c.Reads x)
    (hdeleted : ∀ x ∈ d.deleted, (∃ row, c.repos.get? x.id = some row) ∧
      x.claims = c.claimsOn x.id)
    (honce : (d.repos.map (·.id)).Nodup) : d.TrueOf c := by
  have hclaimed := hc.furnished.claimed
  refine ⟨fun x hx => ?_, fun x hx hempty => ?_, fun x hx hheld => ?_, honce⟩
  · obtain ⟨hlive, hreads⟩ := hstanding x hx
    have hclaims := hreads.claims
    obtain ⟨row, hrow, -⟩ := hreads.spec
    exact ⟨Int.ne_of_gt (hc.ids _ _ hrow), hlive, hreads, hclaims ▸ hclaimed x.id⟩
  · obtain ⟨⟨row, hrow⟩, hclaims⟩ := hdeleted x hx
    have hnone := (hclaimed x.id).eq_empty_iff.mp (hclaims.symm.trans hempty)
    refine ⟨⟨row, hrow, Bool.eq_false_iff.mpr fun hlive => ?_⟩, hnone⟩
    obtain ⟨s, m, hm⟩ := (hc.claimed _ _ hrow).mp hlive
    cases (hnone s).symm.trans hm
  · obtain ⟨⟨row, hrow⟩, hclaims⟩ := hdeleted x hx
    refine ⟨⟨row, hrow, ?_⟩, hclaims ▸ hclaimed x.id⟩
    refine (hc.claimed _ _ hrow).mpr ?_
    by_contra hnone
    refine hheld (hclaims.trans ((hclaimed x.id).eq_empty_iff.mpr fun s => ?_))
    rw [Option.eq_none_iff_forall_ne_some]
    exact fun m hm => hnone ⟨s, m, hm⟩

theorem repos_perm (d : Diff) :
    d.repos.Perm (d.deleted ++ (d.added ++ d.modified ++ d.unmodified)) := by
  unfold repos
  rw [List.append_assoc, List.append_assoc, List.append_assoc d.added]
  exact List.perm_append_comm_assoc _ _ _

theorem deleted_sublist (d : Diff) : d.deleted.Sublist d.repos :=
  (List.sublist_append_right _ _).trans
    ((List.sublist_append_left _ _).trans (List.sublist_append_left _ _))

theorem TrueOf.of_single (hc : c.Tidy) {z : Repo}
    (hz : d.added ++ d.modified ++ d.unmodified = [z]) (hlive : z.deletedAt = none)
    (hreads : c.Reads z) (hdeleted : ∀ x ∈ d.deleted, (∃ row, c.repos.get? x.id = some row) ∧
      x.claims = c.claimsOn x.id)
    (honce : (d.deleted.map (·.id)).Nodup) (hapart : z.id ∉ d.deleted.map (·.id)) :
    d.TrueOf c := by
  refine .of_tidy hc (fun x hx => ?_) hdeleted ?_
  · rw [hz] at hx
    rw [List.mem_singleton.mp hx]
    exact ⟨hlive, hreads⟩
  · rw [(d.repos_perm.map _).nodup_iff, hz, List.map_append, List.map_singleton]
    exact List.nodup_append.mpr ⟨honce, List.pairwise_singleton _ _, fun i hi j hj hij =>
      hapart (List.mem_singleton.mp hj ▸ hij ▸ hi)⟩

theorem sort_perm (rs : List Repo) : (Repo.sort rs).Perm rs :=
  List.mergeSort_perm rs _

theorem TrueOf.sort (h : d.TrueOf c) : d.sort.TrueOf c := by
  have hperm := fun rs => sort_perm rs
  refine ⟨fun x hx => h.standing x ?_, fun x hx => h.gone x ((hperm _).mem_iff.mp hx),
    fun x hx => h.kept x ((hperm _).mem_iff.mp hx), ?_⟩
  · exact (((hperm _).append (hperm _)).append (hperm _)).mem_iff.mp hx
  · refine (List.Perm.nodup_iff (List.Perm.map _ ?_)).mpr h.once
    exact (((hperm _).append (hperm _)).append (hperm _)).append (hperm _)

theorem nodup_ids {rs : List Repo} (hspecs : (rs.map (·.spec)).Nodup)
    (hrows : ∀ x ∈ rs, ∃ row, c.repos.get? x.id = some row ∧ row.spec = x.spec) :
    (rs.map (·.id)).Nodup := by
  refine List.pairwise_map.mpr ((List.pairwise_map.mp hspecs).imp_of_mem ?_)
  intro a b ha hb hne hid
  obtain ⟨row, hrow, hspec⟩ := hrows a ha
  obtain ⟨row', hrow', hspec'⟩ := hrows b hb
  rw [hid, hrow'] at hrow
  cases hrow
  exact hne (hspec.symm.trans hspec')

theorem TrueOf.of_specs (hc : c.Tidy)
    (hstanding : ∀ x ∈ d.added ++ d.modified ++ d.unmodified, x.deletedAt = none ∧ c.Reads x)
    (hdeleted : ∀ x ∈ d.deleted, (∃ row, c.repos.get? x.id = some row ∧ row.spec = x.spec) ∧
      x.claims = c.claimsOn x.id)
    (honce : (d.repos.map (·.spec)).Nodup) : d.TrueOf c := by
  refine .of_tidy hc hstanding (fun x hx => ?_) (nodup_ids (c := c) honce fun x hx => ?_)
  · obtain ⟨⟨row, hrow, -⟩, hclaims⟩ := hdeleted x hx
    exact ⟨⟨row, hrow⟩, hclaims⟩
  · rcases List.mem_append.mp (d.repos_perm.mem_iff.mp hx) with hx | hx
    · exact (hdeleted x hx).1
    · exact (hstanding x hx).2.spec

end Diff

namespace Syncer

open Effect Catalog

variable {y : Syncer} {svc : Service} {r : Repo} {w w' : World} {d : Diff}

theorem joined_reads {c e : Catalog} {x x' : Repo} (url : String) (hsvc : c.Holds svc)
    (h : Joined c svc x x' e)
    (hclaims : x.claims = (Claims.solo svc.urn url).union (c.claimsOn x'.id)) : e.Reads x' := by
  refine reads_of_row h.row ?_
  have hsetting := h.setting
  obtain ⟨⟨_, hsaved, -⟩, claim, hclaim, hmembers⟩ := h
  have hurl : claim.cloneUrl = url := by
    rw [hclaims, Dict.get?_union, Claims.get?_solo, if_pos rfl, Option.some_or] at hclaim
    rw [← Option.some.inj hclaim]
  have hheld := claimsOn_held (j := x'.id) (d := e) (m := ⟨claim.cloneUrl, svc.owner?⟩) hsvc
    hsetting.kindOf? (by rw [hmembers, Dict.get?_insert, if_pos rfl]) fun s hs => by
      rw [hmembers, Dict.get?_insert, if_neg fun hk => hs (congrArg MemberKey.service hk)]
  rw [hheld, hurl, ← hclaims, hsaved.same]

theorem introduce_reads (hw : w.store.catalog.Tidy) (hsvc : w.store.catalog.Holds svc)
    (hr : r.ListedBy svc) (hfree : ∀ j row, w.store.catalog.repos.get? j = some row →
      row.isLive = true → row.spec ≠ r.spec)
    (h : y.introduce svc r w = (.ok d, w')) : ∃ added, d = { Diff.empty with added := [added] } ∧
      added.deletedAt = none ∧ w'.store.catalog.Reads added := by
  obtain ⟨added, hjoined, rfl⟩ := introduce_joined hw.furnished.tables h
  obtain ⟨url, hclaims⟩ := hr.claims
  obtain ⟨_, hsaved, -⟩ := hjoined.saved
  have hnobody : w.store.catalog.claimsOn added.id = ∅ := hw.claimsOn_eq_empty fun row hrow hlive =>
    hfree _ row hrow hlive ((hsaved.placed (.inl rfl)).home row hrow)
  refine ⟨added, rfl, by rw [hsaved.same], joined_reads url hsvc hjoined ?_⟩
  rw [hnobody]
  exact hclaims

theorem claims_of_displace {rival : Option Repo} {ds : List Repo}
    (h : y.displace rival w = (.ok ds, w')) : ∀ x ∈ ds, x.claims = ∅ := by
  cases rival with
  | none =>
      cases h
      intro x hx
      cases hx
  | some x =>
      obtain ⟨⟨⟩, v, -, hend⟩ := bind_ok_iff.mp h
      cases hend
      intro z hz
      rw [List.mem_singleton.mp hz]
      rfl

theorem refresh_reads {c : Catalog} {ids : List Int} {existing : Repo} {row : RepoRow}
    (hw : w.store.catalog.Furnished) (hdeleted : Deleted c ids w.store.catalog)
    (hsvc : c.Holds svc) (hr : r.ListedBy svc) (hrow : c.repos.get? existing.id = some row)
    (hview : existing = c.view (existing.id, row)) (hkept : existing.id ∉ ids)
    (h : y.refresh svc existing r w = (.ok d, w')) : ∃ z, z.id = existing.id ∧
      d.added ++ d.modified ++ d.unmodified = [z] ∧ z.deletedAt = none ∧
      w'.store.catalog.Reads z ∧ ∀ i, i ≠ existing.id →
        w'.store.catalog.repos.get? i = w.store.catalog.repos.get? i ∧
          ∀ s, w'.store.catalog.members.get? ⟨i, s⟩ = w.store.catalog.members.get? ⟨i, s⟩ := by
  obtain ⟨url, hlisted⟩ := hr.claims
  obtain ⟨now, hrepos⟩ := hdeleted.repos
  have hclaims : w.store.catalog.claimsOn existing.id = existing.claims := by
    refine (claimsOn_congr hdeleted.setting.kindOf? fun s => ?_).trans ?_
    · rw [hdeleted.members, if_neg hkept]
    · rw [hview]
      rfl
  rcases refresh_cases hw.tables h with ⟨hsame, rfl, rfl⟩ | ⟨-, x, hid, hjoined, rfl⟩
  · have hlive : existing.deletedAt = none := (Repo.same_of_differs hsame).live hr.live
    refine ⟨existing, rfl, rfl, hlive, ⟨row, ?_, ?_⟩, fun _ _ => ⟨rfl, fun _ => rfl⟩⟩
    · rw [hrepos, hrow, Option.map_some, if_neg hkept]
    · unfold Catalog.view
      rw [hclaims, hview]
      rfl
  · refine ⟨y.renewed existing r, rfl, rfl, ?_, ?_, fun i hi => ?_⟩
    · unfold renewed Repo.revised
      simp only [hr.live, Option.isNone_none, if_true]
    · have hsvc' := hsvc.of_sameSetting hdeleted.setting
      have hreads := joined_reads url hsvc' hjoined (by rw [hid, hclaims, ← hlisted]; rfl)
      refine hreads.of_undated ?_
      obtain ⟨_, hsaved, -⟩ := hjoined.saved
      rw [hsaved.same, hid]
      rfl
    · rw [← hid] at hi
      exact ⟨hjoined.row_of_ne hi, fun s =>
        hjoined.member_of_ne fun hk => hi (congrArg MemberKey.repo hk)⟩

/-- What is told of a single repository is true. -/
theorem reconcile_true (hw : w.store.catalog.Tidy) (hsvc : w.store.catalog.Holds svc)
    (hr : r.ListedBy svc) (h : y.reconcile svc r w = (.ok d, w')) :
    d.TrueOf w'.store.catalog := by
  obtain ⟨hdone, -⟩ := reconcile_ok hw hr.live h
  obtain ⟨rival, existing, ds, d', v, v', htold, hstore, hdisplace, rfl, hend⟩ :=
    reconcile_inv hw.furnished.tables h
  rw [← hstore] at htold hw hsvc
  obtain ⟨hdeleted, hids⟩ := displace_deleted hw.furnished.tables hdisplace
  have hw' := hw.deleted hdeleted
  rcases hend with ⟨x, rfl, hrefresh⟩ | ⟨rfl, u, -, hu, hintroduce⟩
  · obtain ⟨row, hrow, -, hview⟩ := htold.own x rfl
    have hkept : x.id ∉ rival.toList.map (·.id) := fun hout => (htold.displaced _ hout).1 rfl
    obtain ⟨z, hid, hz, hlive, hreads, hothers⟩ := refresh_reads hw'.furnished hdeleted hsvc hr hrow
      hview hkept hrefresh
    refine .of_single hdone hz hlive hreads (fun q hq => ?_) ?_ ?_
    · have hgone : q.id ∈ rival.toList.map (·.id) := hids ▸ List.mem_map_of_mem hq
      obtain ⟨hne, old, hold, -⟩ := htold.displaced _ hgone
      obtain ⟨hsame, hmembers⟩ := hothers _ hne
      obtain ⟨⟨buried, hburied⟩, hnone⟩ := hdeleted.gone hgone hold
      refine ⟨⟨buried, hsame.trans hburied⟩, ?_⟩
      rw [claims_of_displace hdisplace q hq,
        claimsOn_eq_empty fun s => (hmembers s).trans (hnone s)]
    · change (ds.map (·.id)).Nodup
      rw [hids]
      cases rival with
      | none => exact List.nodup_nil
      | some q => exact List.pairwise_singleton _ _
    · change z.id ∉ ds.map (·.id)
      rw [hids, hid]
      exact hkept
  · cases htold.rival_eq_none
    rw [← hu] at hw' hdeleted
    have hfree : ∀ j row, u.store.catalog.repos.get? j = some row → row.isLive = true →
        row.spec ≠ r.spec := by
      intro j row hrow _
      obtain ⟨now, hrepos⟩ := hdeleted.repos
      rw [hrepos] at hrow
      obtain ⟨old, hold, rfl⟩ := Option.map_eq_some_iff.mp hrow
      exact htold.spec_ne hold
    obtain ⟨added, rfl, hlive, hreads⟩ := introduce_reads hw'
      (hsvc.of_sameSetting hdeleted.setting) hr hfree hintroduce
    cases hdisplace
    exact .of_single hdone rfl hlive hreads (fun q hq => (by cases hq)) List.nodup_nil
      List.not_mem_nil

theorem reconcileNew_true (hw : w.store.catalog.Tidy) (hsvc : w.store.catalog.Holds svc)
    (hr : r.ListedBy svc) (h : y.reconcileNew svc r w = (.ok d, w')) :
    d.TrueOf w'.store.catalog := by
  obtain ⟨hdone, -⟩ := reconcileNew_ok hw h
  unfold reconcileNew at h
  obtain ⟨known, v, hlist, h⟩ := bind_ok_iff.mp h
  have hread := store_ok hlist
  rw [run_liveTwins hw.furnished] at hread
  obtain ⟨hknown, hstore⟩ := Prod.mk.inj hread
  cases hknown
  rw [hstore] at hw hsvc
  split at h
  · rename_i hnobody
    have hfree : ∀ j row, v.store.catalog.repos.get? j = some row → row.isLive = true →
        row.spec ≠ r.spec := by
      intro j row hrow hlive hspec
      have hseen : v.store.catalog.view (j, row) ∈
          w.store.catalog.seen fun _ row => row.isLive && meets r row := by
        rw [hstore]
        refine mem_seen.mpr ⟨row, hrow, ?_, rfl⟩
        rw [hlive, Bool.true_and]
        exact meets_iff.mpr (.inr hspec)
      rw [List.isEmpty_iff.mp hnobody] at hseen
      cases hseen
    obtain ⟨added, rfl, hlive, hreads⟩ := introduce_reads hw hsvc hr hfree h
    exact .of_single hdone rfl hlive hreads (fun q hq => (by cases hq)) List.nodup_nil
      List.not_mem_nil
  · cases h
    exact .of_tidy hdone (fun x hx => (by cases hx)) (fun x hx => (by cases hx)) List.nodup_nil

/-- Whatever rows a query finds, to tell of them as deleted is true if they are told of as they
are. -/
theorem selected_true {c : Catalog} (hc : c.Tidy) (q : RepoQuery) :
    ({ Diff.empty with deleted := (q.select c).map c.view } : Diff).TrueOf c := by
  refine .of_tidy hc (fun x hx => (by cases hx)) (fun x hx => ?_) ?_
  · obtain ⟨⟨id, row⟩, he, rfl⟩ := List.mem_map.mp hx
    exact ⟨⟨row, Table.get?_eq_some_iff.mpr (List.mem_filter.mp he).1⟩, rfl⟩
  · have hpairs : (q.select c).Pairwise fun a b => compare a.1 b.1 = .lt :=
      c.repos.rows.sorted.filter _
    rw [((Diff.repos_perm _).map Repo.id).nodup_iff]
    change (((q.select c).map c.view ++ []).map Repo.id).Nodup
    rw [List.append_nil, List.map_map]
    refine List.pairwise_map.mpr (hpairs.imp fun {a b} hab => ?_)
    exact Int.ne_of_lt (Std.compare_eq_lt.mp hab)

section
variable {c e : Catalog} {previous sourced ms as : List Repo} {least : Duration} {x z : Repo}

theorem recordVisit_kinds {interval : Duration} {u : Unit} (hs : w.store.catalog.Furnished)
    (hsvc : w.store.catalog.Holds svc) (h : y.recordVisit svc interval w = (.ok u, w')) (s : Int) :
    w'.store.catalog.kindOf? s = w.store.catalog.kindOf? s := by
  unfold recordVisit at h
  cases hnext : y.now.add? interval with
  | none =>
      rw [hnext] at h
      cases h
  | some next =>
      rw [hnext] at h
      obtain ⟨visited, v, hput, hend⟩ := bind_ok_iff.mp h
      cases hend
      have hid : svc.id ≠ 0 := Int.ne_of_gt (hsvc.range hs).1
      have hput := store_ok hput
      unfold Store.putService at hput
      rw [bind_of_ok (Store.run_now _), if_neg (by exact hid)] at hput
      obtain ⟨⟨⟩, t, hwrite, hend⟩ := bind_ok_iff.mp hput
      obtain ⟨d, hchange, rfl⟩ := Store.write_ok hwrite
      have hstore := congrArg (fun r => r.2.catalog) hend
      change d = w'.store.catalog at hstore
      rw [← hstore]
      refine kindOf?_changeService hchange (fun row hrow => ?_) s
      have hkind := hsvc.kindOf?
      unfold Catalog.kindOf? at hkind
      change w.store.catalog.services.get? svc.id = some row at hrow
      rw [hrow, Option.bind_some] at hkind
      rw [hkind]
      exact Kind.ofName?_name _

theorem applyBatch_kinds (hs : w.store.catalog.Furnished) (hsvc : w.store.catalog.Holds svc)
    {diff : Diff} (h : y.applyBatch svc sourced least w = (.ok diff, w')) (s : Int) :
    w'.store.catalog.kindOf? s = w.store.catalog.kindOf? s := by
  obtain ⟨_, _, _, _, _, _, v, interval, -, -, -, -, -, hsetting, hvisit, -⟩ :=
    applyBatch_inv hs.tables h
  have hvisited := recordVisit_kinds (hs.of_sameSetting hsetting) (hsvc.of_sameSetting hsetting) hvisit
  exact (hvisited s).trans (hsetting.kindOf? s)

theorem claims_of_written (hc : c.Tidy) (hd : Feasible c svc previous d)
    (hx : x ∈ d.modified ++ d.added) (hland : c.Landed x z) :
    ∃ url, x.claims = (Claims.solo svc.urn url).union (c.claimsOn z.id) := by
  rcases List.mem_append.mp hx with hx | hx
  · obtain ⟨old, hold, hid, -, url, hclaims⟩ := hd.modified x hx
    obtain ⟨row, hrow, -, hview⟩ := hd.shown old hold
    have hne : x.id ≠ 0 := hid ▸ Int.ne_of_gt (hc.ids _ _ hrow)
    have hplace : z.id = old.id := (Placed.kept hland hne).trans hid
    have hsaid : old.claims = c.claimsOn old.id := congrArg Repo.claims hview
    exact ⟨url, by rw [hclaims, hplace, hsaid]⟩
  · obtain ⟨-, hfresh, url, hclaims⟩ := hd.added x hx
    have hnobody : c.claimsOn z.id = ∅ := hc.claimsOn_eq_empty fun row hrow hlive =>
      hfresh (c.view (z.id, row)) ⟨row, hrow, hlive, rfl⟩ (Placed.home hland row hrow)
    refine ⟨url, ?_⟩
    rw [hclaims, hnobody]
    rfl

theorem written_reads (hc : c.Tidy) (hsvc : c.Holds svc) (hd : Feasible c svc previous d)
    (hbatched : Batched c svc d e) (hkinds : ∀ s, e.kindOf? s = c.kindOf? s)
    (hx : x ∈ d.modified ++ d.added) (hland : c.Landed x z)
    (hrow : e.repos.get? z.id = some z.row) : e.Reads z := by
  obtain ⟨url, hclaims⟩ := claims_of_written hc hd hx hland
  refine reads_of_row hrow ?_
  rcases hbatched.origin z.id z.row hrow with ⟨x', hx', z', hz', hid⟩ | ⟨old, hold, hother⟩
  · have hrow' := hz'.row
    rw [hid, hrow] at hrow'
    have hspec : z.spec = z'.spec := congrArg RepoRow.spec (Option.some.inj hrow')
    rw [hland.spec, hz'.landed.spec] at hspec
    obtain rfl := eq_of_pairwise_spec hd.written hx hx' hspec
    obtain ⟨claim, m, hown, hm, hurl⟩ := hz'.claim
    have hothers := hz'.others
    rw [hid] at hm hothers
    rw [hclaims, Dict.get?_union, Claims.get?_solo, if_pos rfl, Option.some_or] at hown
    have hsame : m.cloneUrl = url := hurl.trans (by rw [← Option.some.inj hown])
    rw [hland.claims, hclaims, claimsOn_held hsvc hkinds hm hothers, hsame]
  · exact absurd (Placed.home hland old hold).symm (hother x hx)

theorem deleted_reads (hsvc : c.Holds svc) (hd : Feasible c svc previous d)
    (honce : d.deleted.Pairwise fun a b => a.spec ≠ b.spec) (hbatched : Batched c svc d e)
    (hkinds : ∀ s, e.kindOf? s = c.kindOf? s) (hx : x ∈ d.deleted) :
    (∃ row, e.repos.get? x.id = some row ∧ row.spec = x.spec) ∧ x.claims = e.claimsOn x.id := by
  obtain ⟨old, hold, hid, hspec, hclaims⟩ := hd.deleted x hx
  have hshows := hd.shown old hold
  obtain ⟨row, hrow, hlive, hview⟩ := hd.shown old hold
  have hrowspec : row.spec = x.spec := (hshows.said hrow).1.trans hspec.symm
  rw [← hid] at hrow
  by_cases hempty : x.claims.isEmpty = true
  · obtain ⟨⟨row', hrow', -, hspec'⟩, hnone⟩ :=
      hbatched.orphaned x.id row hrow ⟨x, hx, rfl, hempty⟩
    refine ⟨⟨row', hrow', hspec'.trans hrowspec⟩, ?_⟩
    rw [claimsOn_eq_empty hnone]
    exact Dict.ext_get? fun urn => Dict.isEmpty_iff.mp hempty urn
  · -- No other entry stands for the same row, so the row has not been orphaned by one.
    have hunique : ∀ q ∈ d.deleted, q.id = x.id → q = x := by
      intro q hq hsame
      obtain ⟨old', hold', hid', hspec', -⟩ := hd.deleted q hq
      have heq := (hd.shown old' hold').eq_of_id hshows (hid'.symm.trans (hsame.trans hid))
      exact eq_of_pairwise_spec honce hq hx (by rw [hspec', heq, hspec])
    have hstanding : ¬Orphans d x.id := by
      rintro ⟨q, hq, hsame, hnobody⟩
      rw [hunique q hq hsame] at hnobody
      exact hempty hnobody
    obtain ⟨hrow', hmembers⟩ :=
      hbatched.standing x.id row hrow (spec_of_deleted hd hx hrow) hstanding
    refine ⟨⟨row, hrow', hrowspec⟩, ?_⟩
    have herase : x.claims = old.claims.erase svc.urn := by
      refine hclaims.resolve_left fun hnone => hempty ?_
      rw [hnone]
      rfl
    have hsaid : old.claims = c.claimsOn x.id := by
      rw [hid]
      exact congrArg Repo.claims hview
    rw [herase, hsaid, claimsOn_released hsvc hkinds ((hmembers svc.id).1 ⟨x, hx, rfl, .inr rfl⟩)]
    intro s hs
    refine (hmembers s).2 ?_
    rintro ⟨q, hq, hsame, hnobody | hown⟩
    · exact hstanding ⟨q, hq, hsame, hnobody⟩
    · exact hs hown

theorem unmodified_shows (hlisted : ∀ r ∈ sourced, r.ListedBy svc)
    (hbatched : Batched c svc (planned c svc sourced) e)
    (hkinds : ∀ s, e.kindOf? s = c.kindOf? s) (hx : x ∈ (planned c svc sourced).unmodified) :
    e.Shows x := by
  have hd : Feasible c svc _ _ := feasible_plan hlisted
  obtain ⟨dropped, hres⟩ := planned_resolved c svc sourced
  have hcompared := hres.unmodified ▸ hx
  have hshows := (mem_stored.mp ((mem_compared_unmodified hlisted).mp hcompared).1).1
  obtain ⟨row, hrow, hlive, hview⟩ := hshows
  have hundeleted : ∀ q ∈ (planned c svc sourced).deleted, q.id ≠ x.id := by
    intro q hq hsame
    obtain ⟨old, hold, hid, hspec, -⟩ := hd.deleted q hq
    have heq := (hd.shown old hold).eq_of_id ⟨row, hrow, hlive, hview⟩ (hid.symm.trans hsame)
    exact planned_undeleted hlisted hx hq (hspec.trans (congrArg Repo.spec heq))
  have hunwritten : ∀ q ∈ (planned c svc sourced).modified ++ (planned c svc sourced).added,
      q.spec ≠ row.spec := by
    intro q hq
    rw [planned_written] at hq
    have hrowspec : x.spec = row.spec := congrArg Repo.spec hview
    rw [← hrowspec]
    exact compared_unwritten hlisted hcompared (List.mem_filter.mp hq).1
  obtain ⟨hrow', hmembers⟩ := hbatched.standing x.id row hrow hunwritten
    fun ⟨q, hq, hsame, _⟩ => hundeleted q hq hsame
  refine ⟨row, hrow', hlive, ?_⟩
  have hclaims : e.claimsOn x.id = c.claimsOn x.id := claimsOn_congr hkinds fun s =>
    (hmembers s).2 fun ⟨q, hq, hsame, _⟩ => hundeleted q hq hsame
  unfold Catalog.view
  rw [hclaims]
  exact hview

theorem specs_landed {xs ws : List Repo} (h : List.Forall₂ c.Landed xs ws) :
    ws.map (·.spec) = xs.map (·.spec) := by
  induction h with
  | nil => rfl
  | cons hland _ ih => rw [List.map_cons, List.map_cons, hland.spec, ih]

theorem stamped_deleted {now : Instant} (hx : x ∈ (stamp now d).deleted) :
    ∃ z ∈ d.deleted, x.id = z.id ∧ x.spec = z.spec ∧ x.claims = z.claims := by
  obtain ⟨z, hz, rfl⟩ := List.mem_map.mp hx
  refine ⟨z, hz, ?_⟩
  split <;> exact ⟨rfl, rfl, rfl⟩

theorem specs_stamped (now : Instant) (d : Diff) :
    (stamp now d).deleted.map (·.spec) = d.deleted.map (·.spec) := by
  unfold stamp
  rw [List.map_map]
  refine List.map_congr_left fun x _ => ?_
  rw [Function.comp_apply]
  split <;> rfl

theorem specs_once {now : Instant} (honce : (d.repos.map (·.spec)).Nodup)
    (hmodified : List.Forall₂ c.Landed d.modified ms) (hadded : List.Forall₂ c.Landed d.added as) :
    (({ stamp now d with modified := ms, added := as } : Diff).repos.map (·.spec)).Nodup := by
  unfold Diff.repos at honce ⊢
  simp only [List.map_append] at honce ⊢
  rw [specs_landed hadded, specs_landed hmodified, specs_stamped]
  exact honce

/-- What a batch gives back is true of what it leaves. -/
theorem applyBatch_true (hw : w.store.catalog.Tidy) (hsvc : w.store.catalog.Holds svc)
    (hlisted : ∀ r ∈ sourced, r.ListedBy svc) {diff : Diff}
    (h : y.applyBatch svc sourced least w = (.ok diff, w')) : diff.TrueOf w'.store.catalog := by
  have hid : svc.id ≠ 0 := Int.ne_of_gt (hsvc.range hw.furnished).1
  have hd : Feasible w.store.catalog svc _ _ := feasible_plan hlisted
  have hbatched := batched hw.toRooted hsvc hd (applyBatch_ok hw.furnished hid h)
  have hkinds := applyBatch_kinds hw.furnished hsvc h
  obtain ⟨c₁, c₂, c₃, c₄, ms, as, v, interval, hstripped, hdeleted, hmodified, hadded, hjoined,
    hsetting, hvisit, rfl⟩ := applyBatch_inv hw.furnished.tables h
  have hvisited := recordVisit_ok (hw.furnished.of_sameSetting hsetting) hid hvisit
  have hp := penned hd (fun _ _ => spec_deleted hw.toRooted hd hstripped hdeleted)
    (hdeleted.lastId.trans (congrArg Table.lastId hstripped.repos)) hmodified hadded
  have honce : ((planned w.store.catalog svc sourced).repos.map (·.spec)).Nodup :=
    planned_once hlisted
  have hdeletedOnce : (planned w.store.catalog svc sourced).deleted.Pairwise
      fun a b => a.spec ≠ b.spec :=
    (List.pairwise_map.mp honce).sublist (Diff.deleted_sublist _)
  have hwritten : ∀ z ∈ ms ++ as, z.deletedAt = none ∧ w'.store.catalog.Reads z := by
    intro z hz
    obtain ⟨x, hx, hland⟩ := exists_of_mem_right hp.pairs hz
    refine ⟨by rw [Placed.same hland], written_reads hw hsvc hd hbatched hkinds hx hland ?_⟩
    rw [hvisited.repos, hjoined.repos]
    exact hp.row hz
  have hdone := hw.batched hsvc hd hbatched
  refine .sort (.of_specs hdone (fun x hx => ?_) (fun x hx => ?_)
    (specs_once honce hp.modified hp.added))
  · rcases List.mem_append.mp hx with hx | hx
    · exact hwritten x (List.mem_append.mpr (List.mem_append.mp hx).symm)
    · exact (unmodified_shows hlisted hbatched hkinds hx).reads
  · obtain ⟨z, hz, hid, hspec, hclaims⟩ := stamped_deleted hx
    rw [hid, hspec, hclaims]
    exact deleted_reads hsvc hd hdeletedOnce hbatched hkinds hz

end

end Syncer

end RepoCatalog
