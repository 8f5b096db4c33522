import RepoCatalog.Proofs.Kept
import RepoCatalog.Proofs.Winner

/-!
# What is done for a single repository

A listed repository ends up in one row, live and held by its service. If a live row has its name
under another identity, that row makes room and becomes a tombstone that nobody holds. Everything
else stays as it is.
-/
namespace RepoCatalog

open Step

namespace Catalog

variable {c d : Catalog} {svc : Service} {r : Repo}

/-- Whether a row has the identity of a listed repository, or is live and has its name. -/
def meets (r : Repo) (row : RepoRow) : Bool :=
  (row.isLive && row.nameKey == r.lowerName) || row.spec == r.spec

theorem meets_iff {row : RepoRow} :
    meets r row = true ↔ (row.isLive = true ∧ row.nameKey = r.lowerName) ∨ row.spec = r.spec := by
  unfold meets
  rw [Bool.or_eq_true, Bool.and_eq_true, beq_iff_eq, beq_iff_eq]

theorem meets_eq_false {r : Repo} {row : RepoRow} (hname : row.nameKey ≠ r.lowerName)
    (hspec : row.spec ≠ r.spec) : meets r row = false := by
  rw [Bool.eq_false_iff]
  intro hmeets
  exact (meets_iff.mp hmeets).elim (fun h => hname h.2) hspec

theorem id_of_meets {i j : Int} {a b : RepoRow} (ha : c.repos.get? i = some a)
    (hb : c.repos.get? j = some b) (hma : meets r a = true) (hmb : meets r b = true)
    (h : a.spec = r.spec ↔ b.spec = r.spec) : i = j := by
  by_cases hspec : a.spec = r.spec
  · exact spec_inj ha hb (hspec.trans (h.mp hspec).symm)
  · obtain ⟨hla, hka⟩ := (meets_iff.mp hma).resolve_right hspec
    obtain ⟨hlb, hkb⟩ := (meets_iff.mp hmb).resolve_right (mt h.mpr hspec)
    exact nameKey_inj ha hb hla hlb (hka.trans hkb.symm)

theorem select_twins (c : Catalog) (r : Repo) (withDeleted : Bool) :
    (Syncer.twins r withDeleted).select c =
      c.repos.toList.filter fun e => (withDeleted || e.2.isLive) && meets r e.2 := by
  unfold RepoQuery.select
  refine List.filter_congr fun e _ => ?_
  have hanswers : ∀ held wanted, (Syncer.twins r withDeleted).answers held wanted e.1 e.2 =
      [e.2.isLive && wanted.contains e.2.nameKey, [r.spec].contains e.2.spec] := fun _ _ => rfl
  simp only [hanswers]
  unfold Syncer.twins meets
  simp [Repo.lowerName, beq_eq_decide]

theorem seen_twins (c : Catalog) (r : Repo) (withDeleted : Bool) :
    ((Syncer.twins r withDeleted).select c).map c.view =
      c.seen fun _ row => (withDeleted || row.isLive) && meets r row := by
  rw [select_twins]
  rfl

theorem mem_select_twins {e : Int × RepoRow} : e ∈ (Syncer.twins r true).select c ↔
    c.repos.get? e.1 = some e.2 ∧ meets r e.2 = true := by
  rw [select_twins, List.mem_filter, Table.get?_eq_some_iff, Bool.true_or, Bool.true_and]

/-- The rows that a listed repository is matched with, as passes see them. -/
def found (c : Catalog) (r : Repo) : List Repo :=
  c.seen fun _ row => meets r row

theorem related_found (c : Catalog) (r : Repo) : Syncer.related r (c.found r) = c.found r := by
  refine List.filter_eq_self.mpr fun x hx => ?_
  obtain ⟨row, -, hmeets, hview⟩ := mem_seen.mp hx
  rw [hview, Bool.or_eq_true, beq_iff_eq]
  exact (meets_iff.mp hmeets).imp_left And.left

/-- What a listed repository is matched with: the row to be brought up to date, and a live row of
another identity that has the name; no other row meets it. -/
structure Told (c : Catalog) (r : Repo) (rival existing : Option Repo) : Prop where
  own : ∀ x, existing = some x → ∃ row, c.repos.get? x.id = some row ∧ meets r row = true ∧
    x = c.view (x.id, row)
  other : ∀ x, rival = some x → (∃ row, c.repos.get? x.id = some row ∧ row.isLive = true ∧
    row.nameKey = r.lowerName ∧ row.spec ≠ r.spec) ∧ ∃ e, existing = some e ∧ e.id ≠ x.id
  all : ∀ j row, c.repos.get? j = some row → meets r row = true →
    (∃ x, existing = some x ∧ x.id = j) ∨ ∃ x, rival = some x ∧ x.id = j

theorem Told.rival_eq_none {rival : Option Repo} (h : Told c r rival none) : rival = none := by
  rw [Option.eq_none_iff_forall_ne_some]
  intro x hx
  obtain ⟨-, e, he, -⟩ := h.other x hx
  cases he

theorem Told.displaced {rival : Option Repo} {x : Repo} (h : Told c r rival (some x)) :
    ∀ i ∈ rival.toList.map (·.id), i ≠ x.id ∧ ∃ old, c.repos.get? i = some old ∧
      old.isLive = true ∧ old.nameKey = r.lowerName ∧ old.spec ≠ r.spec := by
  intro i hi
  obtain ⟨z, hz, rfl⟩ := List.mem_map.mp hi
  obtain ⟨hold, e, he, hne⟩ := h.other z (Option.mem_toList.mp hz)
  cases he
  exact ⟨hne.symm, hold⟩

theorem Told.spec_ne (h : Told c r none none) {j : Int} {row : RepoRow}
    (hrow : c.repos.get? j = some row) : row.spec ≠ r.spec := by
  intro hspec
  rcases h.all j row hrow (meets_iff.mpr (.inr hspec)) with ⟨x, hx, -⟩ | ⟨x, hx, -⟩
  · cases hx
  · cases hx

section
variable {a b : Repo}

theorem differ_of_found (ha : a ∈ c.found r) (hb : b ∈ c.found r) (hlt : a.id < b.id) :
    ¬(a.spec = r.spec ↔ b.spec = r.spec) := by
  intro h
  obtain ⟨rowa, hrowa, hma, hviewa⟩ := mem_seen.mp ha
  obtain ⟨rowb, hrowb, hmb, hviewb⟩ := mem_seen.mp hb
  rw [hviewa, hviewb] at h
  exact Int.ne_of_lt hlt (id_of_meets hrowa hrowb hma hmb h)

theorem told_single (hfound : c.found r = [a]) : Told c r none (some a) := by
  have ha : a ∈ c.found r := by
    rw [hfound]
    exact List.mem_singleton_self a
  refine ⟨?_, fun x h => (by cases h), fun j row hrow hmeets => .inl ⟨a, rfl, ?_⟩⟩
  · rintro x ⟨⟩
    exact mem_seen.mp ha
  · have hview : c.view (j, row) ∈ c.found r := mem_seen.mpr ⟨row, hrow, hmeets, rfl⟩
    rw [hfound, List.mem_singleton] at hview
    exact (congrArg Repo.id hview).symm

theorem told_pair (hfound : ∀ x, x ∈ c.found r ↔ x = a ∨ x = b) (hne : a.id ≠ b.id)
    (hspec : b.spec ≠ r.spec) : Told c r (some b) (some a) := by
  refine ⟨?_, ?_, fun j row hrow hmeets => ?_⟩
  · rintro x ⟨⟩
    exact mem_seen.mp ((hfound _).mpr (.inl rfl))
  · rintro x ⟨⟩
    obtain ⟨row, hrow, hmeets, hview⟩ := mem_seen.mp ((hfound _).mpr (.inr rfl))
    have hother : row.spec ≠ r.spec := by
      rw [hview] at hspec
      exact hspec
    obtain ⟨hlive, hkey⟩ := (meets_iff.mp hmeets).resolve_right hother
    exact ⟨⟨row, hrow, hlive, hkey, hother⟩, a, rfl, hne⟩
  · have hview : c.view (j, row) ∈ c.found r := mem_seen.mpr ⟨row, hrow, hmeets, rfl⟩
    rcases (hfound _).mp hview with hview | hview
    · exact .inl ⟨a, rfl, (congrArg Repo.id hview).symm⟩
    · exact .inr ⟨b, rfl, (congrArg Repo.id hview).symm⟩

/-- The match never fails: of the rows found, at most one has the identity and at most one other
the name. -/
theorem exists_told (c : Catalog) (r : Repo) : ∃ rival existing,
    Syncer.tellApart r (c.found r) = .ok (rival, existing) ∧ Told c r rival existing := by
  have hapart : (c.found r).Pairwise fun a b => a.id < b.id := pairwise_seen c _
  have hdiffer : ∀ a ∈ c.found r, ∀ b ∈ c.found r, a.id < b.id → _ :=
    fun a ha b hb => differ_of_found ha hb
  rcases hfound : c.found r with _ | ⟨a, _ | ⟨b, _ | ⟨x, rest⟩⟩⟩
  · refine ⟨none, none, rfl, fun x h => (by cases h), fun x h => (by cases h),
      fun j row hrow hmeets => ?_⟩
    have hview : c.view (j, row) ∈ c.found r := mem_seen.mpr ⟨row, hrow, hmeets, rfl⟩
    rw [hfound] at hview
    cases hview
  · exact ⟨none, some a, rfl, told_single hfound⟩
  · have hboth : ∀ x, x ∈ c.found r ↔ x = a ∨ x = b := fun x => by rw [hfound, List.mem_pair]
    rw [hfound] at hapart hdiffer
    have ha : a ∈ [a, b] := List.mem_cons_self
    have hb : b ∈ [a, b] := List.mem_cons_of_mem a (List.mem_singleton_self b)
    have hlt : a.id < b.id := List.rel_of_pairwise_cons hapart (List.mem_singleton_self b)
    by_cases hspec : a.spec = r.spec
    · have hother : b.spec ≠ r.spec := fun h => hdiffer a ha b hb hlt ⟨fun _ => h, fun _ => hspec⟩
      exact ⟨some b, some a, (if_neg (not_not.mpr hspec)).trans (if_pos hother),
        told_pair hboth (Int.ne_of_lt hlt) hother⟩
    · exact ⟨some a, some b, if_pos hspec,
        told_pair (fun x => (hboth x).trans or_comm) (Int.ne_of_lt hlt).symm hspec⟩
  · -- Of three rows, two would share the identity or the name.
    rw [hfound] at hapart hdiffer
    have ha : a ∈ a :: b :: x :: rest := List.mem_cons_self
    have hb : b ∈ a :: b :: x :: rest := List.mem_cons_of_mem a List.mem_cons_self
    have hx : x ∈ a :: b :: x :: rest :=
      List.mem_cons_of_mem a (List.mem_cons_of_mem b List.mem_cons_self)
    have hab := hdiffer a ha b hb (List.rel_of_pairwise_cons hapart List.mem_cons_self)
    have hbx := hdiffer b hb x hx (List.rel_of_pairwise_cons hapart.of_cons List.mem_cons_self)
    have hax := hdiffer a ha x hx
      (List.rel_of_pairwise_cons hapart (List.mem_cons_of_mem b List.mem_cons_self))
    exfalso
    tauto

end

/-- A live row that a service holds and that says what a listed repository says. -/
def Stands (c : Catalog) (svc : Service) (r : Repo) (j : Int) : Prop :=
  ∃ row m, c.repos.get? j = some row ∧ row.isLive = true ∧
    c.members.get? ⟨j, svc.id⟩ = some m ∧ r.faceFor svc = some (row.face m.cloneUrl)

theorem Stands.of_same {j : Int} (h : c.Stands svc r j) (hrow : d.repos.get? j = c.repos.get? j)
    (hmember : d.members.get? ⟨j, svc.id⟩ = c.members.get? ⟨j, svc.id⟩) : d.Stands svc r j := by
  obtain ⟨row, m, hget, hlive, hm, hface⟩ := h
  exact ⟨row, m, hrow.trans hget, hlive, hmember.trans hm, hface⟩

theorem Stands.row {j : Int} (h : c.Stands svc r j) : ∃ row, c.repos.get? j = some row ∧
    row.isLive = true ∧ row.name = r.name ∧ row.spec = r.spec := by
  obtain ⟨row, m, hrow, hlive, -, hface⟩ := h
  obtain ⟨claim, -, hsame⟩ := Option.map_eq_some_iff.mp hface
  exact ⟨row, hrow, hlive, (congrArg Face.name hsame).symm, (congrArg Face.spec hsame).symm⟩

theorem Stands.face {j : Int} {row : RepoRow} (h : c.Stands svc r j)
    (hrow : c.repos.get? j = some row) (url : String) : row.face url = r.row.face url := by
  obtain ⟨row', m, hrow', -, -, hface⟩ := h
  cases hrow.symm.trans hrow'
  obtain ⟨claim, -, hsame⟩ := Option.map_eq_some_iff.mp hface
  exact RepoRow.face_congr hsame.symm url

/-- What the catalog `d` holds once a listed repository was brought into the row `j` and the rows
`out` of `c` made room for it. -/
structure Seated (c : Catalog) (svc : Service) (r : Repo) (j : Int) (out : List Int)
    (d : Catalog) : Prop where
  setting : SameSetting c d
  stands : d.Stands svc r j
  origin : ∀ old, c.repos.get? j = some old → meets r old = true
  room : ∀ i ∈ out, i ≠ j ∧ ∃ old, c.repos.get? i = some old ∧ old.isLive = true ∧
    old.nameKey = r.lowerName ∧ old.spec ≠ r.spec
  gone : ∀ i ∈ out, (∃ row, d.repos.get? i = some row ∧ row.isLive = false) ∧
    ∀ s, d.members.get? ⟨i, s⟩ = none
  rows : ∀ i, i ≠ j → i ∉ out → d.repos.get? i = c.repos.get? i
  members : ∀ k, k ≠ ⟨j, svc.id⟩ → k.repo ∉ out → d.members.get? k = c.members.get? k

theorem Joined.stands {x x' : Repo} (h : Joined c svc x x' d) (hlive : x.deletedAt = none)
    {claim : Claim} (hclaim : x.claims.get? svc.urn = some claim)
    (hface : r.faceFor svc = some (x.row.face claim.cloneUrl)) : d.Stands svc r x'.id := by
  obtain ⟨⟨e, hsaved, -, hrepos⟩, own, hown, hmembers⟩ := h
  cases hclaim.symm.trans hown
  have hrow : x'.row.isLive = true ∧ ∀ url, x'.row.face url = x.row.face url := by
    rw [hsaved.same]
    refine ⟨?_, fun url => rfl⟩
    change x.deletedAt.isNone = true
    rw [hlive]
    rfl
  refine ⟨x'.row, ⟨claim.cloneUrl, svc.owner?⟩, ?_, hrow.1, ?_, ?_⟩
  · rw [hrepos, hsaved.repos, if_pos rfl]
  · rw [hmembers, Dict.get?_insert, if_pos rfl]
  · rw [hface, hrow.2]

theorem Joined.row {x x' : Repo} (h : Joined c svc x x' d) :
    d.repos.get? x'.id = some x'.row := by
  obtain ⟨⟨e, hsaved, -, hrepos⟩, -⟩ := h
  rw [hrepos, hsaved.repos, if_pos rfl]

theorem Joined.row_of_ne {x x' : Repo} (h : Joined c svc x x' d) {i : Int} (hi : i ≠ x'.id) :
    d.repos.get? i = c.repos.get? i := by
  obtain ⟨⟨e, hsaved, -, hrepos⟩, -⟩ := h
  rw [hrepos, hsaved.repos, if_neg hi]

theorem Joined.member_of_ne {x x' : Repo} (h : Joined c svc x x' d) {k : MemberKey}
    (hk : k ≠ ⟨x'.id, svc.id⟩) : d.members.get? k = c.members.get? k := by
  obtain ⟨-, claim, -, hmembers⟩ := h
  rw [hmembers, Dict.get?_insert, if_neg hk]

theorem Joined.setting {x x' : Repo} (h : Joined c svc x x' d) : SameSetting c d := by
  obtain ⟨⟨e, hsaved, hsetting, -⟩, -⟩ := h
  exact hsaved.setting.trans hsetting

/-- First rows are deleted to make room, and then nothing but one row and one membership changes. -/
theorem Seated.of_deleted {e : Catalog} {j : Int} {out : List Int} (hdeleted : Deleted c out d)
    (hsetting : SameSetting d e) (hrows : ∀ i, i ≠ j → e.repos.get? i = d.repos.get? i)
    (hmembers : ∀ k, k ≠ ⟨j, svc.id⟩ → e.members.get? k = d.members.get? k)
    (hstands : e.Stands svc r j) (horigin : ∀ old, c.repos.get? j = some old → meets r old = true)
    (hroom : ∀ i ∈ out, i ≠ j ∧ ∃ old, c.repos.get? i = some old ∧ old.isLive = true ∧
      old.nameKey = r.lowerName ∧ old.spec ≠ r.spec) : Seated c svc r j out e := by
  obtain ⟨now, hrepos⟩ := hdeleted.repos
  refine ⟨hdeleted.setting.trans hsetting, hstands, horigin, hroom, ?_, ?_, ?_⟩
  · intro i hi
    obtain ⟨hne, old, hold, -⟩ := hroom i hi
    refine ⟨⟨bury now old, ?_, not_isLive_bury now old⟩, fun s => ?_⟩
    · rw [hrows i hne, hrepos, hold, Option.map_some, if_pos hi]
    · rw [hmembers _ fun hk => hne (congrArg MemberKey.repo hk), hdeleted.members, if_pos hi]
  · intro i hi hkept
    rw [hrows i hi, hrepos]
    simp only [hkept, if_false, Option.map_id']
  · intro k hk hkept
    rw [hmembers k hk, hdeleted.members, if_neg hkept]

theorem stands_of_same {j : Int} {row : RepoRow} (hrow : c.repos.get? j = some row)
    (hlive : r.deletedAt = none) (hspec : r.spec.isEmpty = false) {claim : Claim}
    (hclaim : r.claims.get? svc.urn = some claim)
    (h : (c.view (j, row)).differs { r with claims := r.claims.union (c.claimsOn j) } = false) :
    c.Stands svc r j := by
  have hsame := Repo.same_of_differs h
  have hdate : row.isLive = true := Option.isNone_iff_eq_none.mpr (hsame.live hlive)
  have hown : (c.claimsOn j).get? svc.urn = some claim := by
    rw [show c.claimsOn j = _ from hsame.claims, Dict.get?_union, hclaim, Option.some_or]
  obtain ⟨s, m, kind, hm, -, hurn, rfl⟩ := get?_claimsOn.mp hown
  rw [← Urn.format_id_inj hurn] at hm
  refine ⟨row, m, hrow, hdate, hm, ?_⟩
  have hface : row.face m.cloneUrl = r.row.face m.cloneUrl :=
    hsame.face (hsame.spec hspec) m.cloneUrl
  unfold Repo.faceFor
  rw [hclaim, Option.map_some, hface]

end Catalog

namespace Syncer

open Effect Catalog

variable {y : Syncer} {svc : Service} {r : Repo} {w w' : World} {d : Diff}

theorem run_twins {s : Store} (hs : s.catalog.Furnished) (r : Repo) :
    Store.listRepos (twins r true) s = (.ok (s.catalog.found r), s) := by
  rw [Store.run_listRepos hs, seen_twins]
  rfl

theorem twins_ok {s t : Store} (hs : s.catalog.Complete) {rs : List Repo}
    (h : Store.listRepos (twins r true) s = (.ok rs, t)) : rs = s.catalog.found r ∧ t = s ∧
      ∀ j row, s.catalog.repos.get? j = some row → meets r row = true →
        s.catalog.KindsKnown j := by
  obtain ⟨hrs, ht, hknown⟩ := Store.listRepos_ok hs h
  refine ⟨hrs.trans (seen_twins s.catalog r true), ht, fun j row hrow hmeets => ?_⟩
  exact hknown (j, row) (mem_select_twins.mpr ⟨hrow, hmeets⟩)

theorem reconcile_inv (hs : w.store.catalog.Complete) (h : y.reconcile svc r w = (.ok d, w')) :
    ∃ rival existing ds d' v v', Told w.store.catalog r rival existing ∧ v.store = w.store ∧
      y.displace rival v = (.ok ds, v') ∧ d = { d' with deleted := ds } ∧
      ((∃ x, existing = some x ∧ y.refresh svc x r v' = (.ok d', w')) ∨
        (existing = none ∧ ∃ u, y.checkRoom svc v' = (.ok (), u) ∧ u.store = v'.store ∧
          y.introduce svc r u = (.ok d', w'))) := by
  unfold reconcile at h
  obtain ⟨matching, v, hlist, h⟩ := bind_ok_iff.mp h
  obtain ⟨rfl, hstore, -⟩ := twins_ok hs (store_ok hlist)
  obtain ⟨rival, existing, htold, hmatch⟩ := exists_told w.store.catalog r
  rw [related_found, htold] at h
  obtain ⟨ds, v', hdisplace, h⟩ := bind_ok_iff.mp h
  refine ⟨rival, existing, ds, ?_⟩
  cases existing with
  | some x =>
      obtain ⟨d', v'', hrefresh, hend⟩ := bind_ok_iff.mp h
      cases hend
      exact ⟨d', v, v', hmatch, hstore, hdisplace, rfl, .inl ⟨x, rfl, hrefresh⟩⟩
  | none =>
      obtain ⟨⟨⟩, u, hroom, h⟩ := bind_ok_iff.mp h
      have hstill : u.store = v'.store := (asks_checkRoom (R := SameStore) y svc).of_run hroom
      obtain ⟨d', v'', hintroduce, hend⟩ := bind_ok_iff.mp h
      cases hend
      exact ⟨d', v, v', hmatch, hstore, hdisplace, rfl,
        .inr ⟨rfl, u, hroom, hstill, hintroduce⟩⟩

theorem displace_deleted (hs : w.store.catalog.Complete) {rival : Option Repo} {ds : List Repo}
    (h : y.displace rival w = (.ok ds, w')) :
    Deleted w.store.catalog (rival.toList.map (·.id)) w'.store.catalog ∧
      ds.map (·.id) = rival.toList.map (·.id) := by
  cases rival with
  | none =>
      cases h
      refine ⟨⟨.refl _, rfl, ⟨default, fun j => ?_⟩, fun k => ?_⟩, rfl⟩
      · simp
      · simp
  | some x =>
      obtain ⟨⟨⟩, v, hdelete, hend⟩ := bind_ok_iff.mp h
      cases hend
      exact ⟨(Store.deleteRepos_ok hs (store_ok hdelete)).1, rfl⟩

theorem introduce_joined (hs : w.store.catalog.Complete)
    (h : y.introduce svc r w = (.ok d, w')) : ∃ added,
      Joined w.store.catalog svc { y.asNew r with deletedAt := none } added w'.store.catalog ∧
        d = { Diff.empty with added := [added] } := by
  obtain ⟨added, v, hcreate, hend⟩ := bind_ok_iff.mp h
  cases hend
  exact ⟨added, Store.createMember_ok hs (store_ok hcreate), rfl⟩

theorem run_liveTwins {s : Store} (hs : s.catalog.Furnished) (r : Repo) :
    Store.listRepos (twins r false) s =
      (.ok (s.catalog.seen fun _ row => row.isLive && meets r row), s) := by
  rw [Store.run_listRepos hs, seen_twins]
  rfl

/-- A repository is either found among the live rows, and then nothing is done, or introduced. -/
theorem reconcileNew_inv (hs : w.store.catalog.Furnished)
    (h : y.reconcileNew svc r w = (.ok d, w')) :
    (w'.store = w.store ∧ d = .empty ∧ ∃ j row, w.store.catalog.repos.get? j = some row ∧
      row.isLive = true ∧ meets r row = true) ∨
    ((∀ j row, w.store.catalog.repos.get? j = some row → row.isLive = true →
      meets r row = false) ∧ ∃ added,
      Joined w.store.catalog svc { y.asNew r with deletedAt := none } added w'.store.catalog ∧
        d = { Diff.empty with added := [added] }) := by
  unfold reconcileNew at h
  obtain ⟨known, v, hlist, h⟩ := bind_ok_iff.mp h
  have hread := store_ok hlist
  rw [run_liveTwins hs] at hread
  obtain ⟨hknown, hstore⟩ := Prod.mk.inj hread
  cases hknown
  rw [hstore] at hs h ⊢
  split at h
  · rename_i hnone
    obtain ⟨added, hjoined, hd⟩ := introduce_joined hs.tables h
    refine .inr ⟨fun j row hrow hlive => ?_, added, hjoined, hd⟩
    rw [← Bool.not_eq_true]
    intro hmeets
    have hfound : v.store.catalog.view (j, row) ∈
        v.store.catalog.seen fun _ row => row.isLive && meets r row :=
      mem_seen.mpr ⟨row, hrow, Bool.and_eq_true_iff.mpr ⟨hlive, hmeets⟩, rfl⟩
    rw [List.isEmpty_iff.mp hnone] at hfound
    cases hfound
  · rename_i hsome
    cases h
    obtain ⟨x, hx⟩ := List.exists_mem_of_ne_nil _ (mt List.isEmpty_iff.mpr hsome)
    obtain ⟨row, hrow, hmatch, -⟩ := mem_seen.mp hx
    obtain ⟨hlive, hmeets⟩ := Bool.and_eq_true_iff.mp hmatch
    exact .inl ⟨rfl, rfl, x.id, row, hrow, hlive, hmeets⟩

theorem reconcileNew_cases (hs : w.store.catalog.Furnished)
    (h : y.reconcileNew svc r w = (.ok d, w')) :
    w'.store.catalog = w.store.catalog ∨ ∃ added,
      Joined w.store.catalog svc { y.asNew r with deletedAt := none } added w'.store.catalog := by
  rcases reconcileNew_inv hs h with ⟨hsame, -⟩ | ⟨-, added, hjoined, -⟩
  · exact .inl (congrArg Store.catalog hsame)
  · exact .inr ⟨added, hjoined⟩

def renewed (y : Syncer) (existing sourced : Repo) : Repo :=
  { existing.revised { sourced with claims := sourced.claims.union existing.claims } with
    updatedAt := some y.now }

theorem refresh_cases {existing : Repo} (hs : w.store.catalog.Complete)
    (h : y.refresh svc existing r w = (.ok d, w')) :
    (existing.differs { r with claims := r.claims.union existing.claims } = false ∧ w' = w ∧
      d = { Diff.empty with unmodified := [existing] }) ∨
    (existing.id ≠ 0 ∧ ∃ x, x.id = existing.id ∧
      Joined w.store.catalog svc (y.renewed existing r) x w'.store.catalog ∧
      d = { Diff.empty with modified := [y.renewed existing r] }) := by
  unfold refresh at h
  simp only [] at h
  split at h
  · obtain ⟨⟨⟩, v, hupdate, hend⟩ := bind_ok_iff.mp h
    cases hend
    obtain ⟨hne, x, hx, hjoined⟩ := Store.updateMember_ok hs (store_ok hupdate)
    exact .inr ⟨hne, x, hx, hjoined, rfl⟩
  · rename_i hsame
    cases h
    exact .inl ⟨Bool.eq_false_iff.mpr hsame, rfl, rfl⟩

section
variable {c : Catalog} {out : List Int} {claim : Claim}

theorem refresh_seated {existing : Repo} {row : RepoRow}
    (hs : w.store.catalog.Furnished) (hdeleted : Deleted c out w.store.catalog)
    (hrow : c.repos.get? existing.id = some row) (hmeets : meets r row = true)
    (hview : existing = c.view (existing.id, row))
    (hroom : ∀ i ∈ out, i ≠ existing.id ∧ ∃ old, c.repos.get? i = some old ∧ old.isLive = true ∧
      old.nameKey = r.lowerName ∧ old.spec ≠ r.spec)
    (hlive : r.deletedAt = none) (hspec : r.spec.isEmpty = false)
    (hclaim : r.claims.get? svc.urn = some claim)
    (h : y.refresh svc existing r w = (.ok d, w')) :
    Seated c svc r existing.id out w'.store.catalog ∧
      (d.added ++ d.modified ++ d.unmodified).map (·.id) = [existing.id] := by
  have horigin : ∀ old, c.repos.get? existing.id = some old → meets r old = true := by
    intro old hold
    cases hrow.symm.trans hold
    exact hmeets
  rcases refresh_cases hs.tables h with ⟨hsame, rfl, rfl⟩ | ⟨-, x, hx, hjoined, rfl⟩
  · refine ⟨.of_deleted hdeleted (.refl _) (fun _ _ => rfl) (fun _ _ => rfl) ?_ horigin hroom, rfl⟩
    have hkept : existing.id ∉ out := fun hi => (hroom _ hi).1 rfl
    obtain ⟨now, hrepos⟩ := hdeleted.repos
    rw [hview] at hsame
    refine (stands_of_same hrow hlive hspec hclaim hsame).of_same ?_ ?_
    · rw [hrepos]
      simp only [hkept, if_false, Option.map_id']
    · rw [hdeleted.members, if_neg hkept]
  · refine ⟨?_, rfl⟩
    rw [← hx] at hroom horigin ⊢
    refine .of_deleted hdeleted hjoined.setting (fun i hi => hjoined.row_of_ne hi)
      (fun k hk => hjoined.member_of_ne hk) ?_ horigin hroom
    have hown : (y.renewed existing r).claims.get? svc.urn = some claim := by
      change (r.claims.union existing.claims).get? svc.urn = some claim
      rw [Dict.get?_union, hclaim, Option.some_or]
    refine hjoined.stands ?_ hown ?_
    · unfold renewed Repo.revised
      simp only [hlive, Option.isNone_none, if_true]
    · unfold Repo.faceFor renewed Repo.revised
      rw [hclaim, Option.map_some]
      simp only [RepoRow.face, Repo.row, RepoRow.ofRepo, hspec, Bool.false_eq_true, if_false]

theorem introduce_seated (hs : w.store.catalog.Furnished) (hdeleted : Deleted c [] w.store.catalog)
    (hclaim : r.claims.get? svc.urn = some claim)
    (h : y.introduce svc r w = (.ok d, w')) : ∃ j,
      Seated c svc r j [] w'.store.catalog ∧
        (d.added ++ d.modified ++ d.unmodified).map (·.id) = [j] := by
  obtain ⟨added, hjoined, rfl⟩ := introduce_joined hs.tables h
  obtain ⟨now, hrepos⟩ := hdeleted.repos
  refine ⟨added.id, .of_deleted hdeleted hjoined.setting (fun i hi => hjoined.row_of_ne hi)
    (fun k hk => hjoined.member_of_ne hk) ?_ ?_ (fun i hi => (by cases hi)), rfl⟩
  · refine hjoined.stands rfl hclaim ?_
    unfold Repo.faceFor
    rw [hclaim, Option.map_some]
    rfl
  · intro old hold
    obtain ⟨⟨e, hsaved, -⟩, -⟩ := hjoined
    have hold' : w.store.catalog.repos.get? added.id = some old := by
      rw [hrepos, hold]
      simp
    exact meets_iff.mpr (.inr ((hsaved.placed (.inl rfl)).home old hold'))

end

/-- Who is brought up to date ends up in the row that it was matched with, or in a new one, and its
rival makes room; the difference tells of exactly these. -/
theorem reconcile_told (hs : w.store.catalog.Furnished) (hlive : r.deletedAt = none)
    (hspec : r.spec.isEmpty = false) {claim : Claim} (hclaim : r.claims.get? svc.urn = some claim)
    (h : y.reconcile svc r w = (.ok d, w')) : ∃ rival existing j,
      Told w.store.catalog r rival existing ∧ (∀ x, existing = some x → x.id = j) ∧
      Seated w.store.catalog svc r j (rival.toList.map (·.id)) w'.store.catalog ∧
      ∀ i, i ∈ d.repos.map (·.id) ↔ i = j ∨ i ∈ rival.toList.map (·.id) := by
  obtain ⟨rival, existing, ds, d', v, v', htold, hstore, hdisplace, rfl, hend⟩ :=
    reconcile_inv hs.tables h
  rw [← hstore] at htold hs ⊢
  obtain ⟨hdeleted, hids⟩ := displace_deleted hs.tables hdisplace
  have hs' := hs.of_sameSetting hdeleted.setting
  have htells : ∀ j, (d'.added ++ d'.modified ++ d'.unmodified).map (·.id) = [j] →
      ∀ i, i ∈ ({ d' with deleted := ds } : Diff).repos.map (·.id) ↔
        i = j ∨ i ∈ rival.toList.map (·.id) := by
    intro j hj i
    rw [← hids, ← List.mem_singleton, ← hj]
    unfold Diff.repos
    simp only [List.map_append, List.mem_append]
    tauto
  refine ⟨rival, existing, ?_⟩
  rcases hend with ⟨x, rfl, hrefresh⟩ | ⟨rfl, u, -, hu, hintroduce⟩
  · obtain ⟨row, hrow, hmeets, hview⟩ := htold.own x rfl
    obtain ⟨hseated, hj⟩ := refresh_seated hs' hdeleted hrow hmeets hview htold.displaced hlive
      hspec hclaim hrefresh
    exact ⟨x.id, htold, fun e he => (by cases he; rfl), hseated, htells _ hj⟩
  · cases htold.rival_eq_none
    rw [← hu] at hs' hdeleted
    obtain ⟨j, hseated, hj⟩ := introduce_seated hs' hdeleted hclaim hintroduce
    exact ⟨j, htold, fun e he => (by cases he), hseated, htells j hj⟩

theorem saved_reconcileNew (y : Syncer) (svc : Service) (r : Repo) :
    Within SameSaved (y.reconcileNew svc r) :=
  admits_reconcileNew (p := fun _ => True) y svc trivial

theorem saved_reconcile (y : Syncer) (svc : Service) (r : Repo) :
    Within SameSaved (y.reconcile svc r) :=
  admits_reconcile (p := fun _ => True) y svc trivial

/-- What matching a repository with the catalog does whenever it ends well, that bringing it up to
date does, or nothing. -/
theorem onFurnished_sync {S : Catalog → Catalog → Prop} (hrefl : ∀ c, S c c)
    (h : ∀ v d v', v.store.catalog.Furnished → y.reconcile svc r v = (.ok d, v') →
      S v.store.catalog v'.store.catalog) : Within (OnFurnished S) (y.sync svc r) := by
  have hrest : ∀ d, Within SameStore (do y.publishSome d; return d : Pass Diff) := fun d =>
    Within.bind (still_publishSome y d) fun _ => Within.pure d
  refine Within.seq (P := fun _ => True) (onFurnished_transaction hrefl (saved_reconcile y svc r) h)
    (fun _ _ _ _ => trivial) (fun d _ => hrest d) (fun _ _ h => h) ?_
  intro v u u' hv hstill
  unfold OnFurnished at hv ⊢
  rwa [show u'.store = u.store from hstill]

theorem setting_reconcile (hs : w.store.catalog.Complete) (h : y.reconcile svc r w = (.ok d, w')) :
    SameSetting w.store.catalog w'.store.catalog := by
  obtain ⟨rival, existing, ds, d', v, v', -, hstore, hdisplace, -, hend⟩ := reconcile_inv hs h
  rw [← hstore] at hs ⊢
  obtain ⟨hdeleted, -⟩ := displace_deleted hs hdisplace
  have hs' := hs.of_version hdeleted.setting.version
  rcases hend with ⟨x, -, hrefresh⟩ | ⟨-, u, -, hu, hintroduce⟩
  · rcases refresh_cases hs' hrefresh with ⟨-, rfl, -⟩ | ⟨-, x', -, hjoined, -⟩
    · exact hdeleted.setting
    · exact hdeleted.setting.trans hjoined.setting
  · rw [← hu] at hs' hdeleted
    obtain ⟨added, hjoined, -⟩ := introduce_joined hs' hintroduce
    exact hdeleted.setting.trans hjoined.setting

theorem sync_ok (h : y.sync svc r w = (.ok d, w')) : ∃ v v', v.store = opened w.store ∧
    y.reconcile svc r v = (.ok d, v') ∧ w'.store.catalog = v'.store.catalog := by
  unfold sync at h
  obtain ⟨d', u, hdone, h⟩ := bind_ok_iff.mp h
  obtain ⟨⟨⟩, u', hpublish, hend⟩ := bind_ok_iff.mp h
  cases hend
  obtain ⟨v, v', hv, hrun, hcatalog⟩ := transaction_ok (saved_reconcile y svc r) hdone
  have hstill : w'.store = u.store := (still_publishSome y d).of_run hpublish
  exact ⟨v, v', hv, hrun, by rw [hstill, hcatalog]⟩

theorem sync_told (hs : w.store.catalog.Furnished) (hlive : r.deletedAt = none)
    (hspec : r.spec.isEmpty = false) {claim : Claim} (hclaim : r.claims.get? svc.urn = some claim)
    (h : y.sync svc r w = (.ok d, w')) : ∃ rival existing j,
      Told w.store.catalog r rival existing ∧ (∀ x, existing = some x → x.id = j) ∧
      Seated w.store.catalog svc r j (rival.toList.map (·.id)) w'.store.catalog ∧
      ∀ i, i ∈ d.repos.map (·.id) ↔ i = j ∨ i ∈ rival.toList.map (·.id) := by
  obtain ⟨v, v', hv, hrun, hcatalog⟩ := sync_ok h
  have hsame : v.store.catalog = w.store.catalog := catalog_of_opened hv
  rw [hcatalog, ← hsame]
  exact reconcile_told (hsame ▸ hs) hlive hspec hclaim hrun

theorem sync_seated (hs : w.store.catalog.Furnished) (hlive : r.deletedAt = none)
    (hspec : r.spec.isEmpty = false) {claim : Claim} (hclaim : r.claims.get? svc.urn = some claim)
    (h : y.sync svc r w = (.ok d, w')) :
    ∃ j out, Seated w.store.catalog svc r j out w'.store.catalog ∧
      ∀ i, i ∈ d.repos.map (·.id) ↔ i = j ∨ i ∈ out := by
  obtain ⟨rival, existing, j, -, -, hseated, htells⟩ := sync_told hs hlive hspec hclaim h
  exact ⟨j, _, hseated, htells⟩

end Syncer

end RepoCatalog
