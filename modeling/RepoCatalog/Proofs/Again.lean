import RepoCatalog.Proofs.Failures
import RepoCatalog.Proofs.Truth

/-!
# The same repository again

Once a listed repository was brought up to date, one row says what the listing says, and nothing
else has its identity or its name. Brought up to date again, the repository is matched with that row
and nothing is left to do. It only has to be found: a repository that names no identity is found by
its name, and is lost if the row took over a name that is not looked up in the letters in which it
is stored.
-/
namespace RepoCatalog

open Step

theorem Claims.union_solo_again (urn url : String) (claims : Claims) :
    (Claims.solo urn url).union ((Claims.solo urn url).union claims) =
      (Claims.solo urn url).union claims := by
  refine Dict.ext_get? fun key => ?_
  rw [Dict.get?_union, Dict.get?_union, Claims.get?_solo]
  split
  · rfl
  · rfl

namespace Catalog

variable {c d e : Catalog} {svc : Service} {r x x' : Repo} {j : Int} {row : RepoRow}

/-- The row of the repository says what the repository says, and no other row is matched with it. -/
structure Current (c : Catalog) (r : Repo) (j : Int) (row : RepoRow) : Prop where
  stored : c.repos.get? j = some row
  same : (c.view (j, row)).Same { r with claims := r.claims.union (c.claimsOn j) }
  known : c.KindsKnown j
  only : ∀ i other, c.repos.get? i = some other → meets r other = true → i = j

/-- A repository that names no identity is matched by name with a row of some identity, and its own
name is not looked up in the letters in which that row will be stored. -/
def LosesSight (c : Catalog) (r : Repo) : Prop :=
  r.spec.isEmpty = true ∧ Text.Ascii.lower r.name ≠ r.lowerName ∧
    (∀ j row, c.repos.get? j = some row → row.spec ≠ r.spec) ∧
    ∃ j row, c.repos.get? j = some row ∧ row.isLive = true ∧ row.nameKey = r.lowerName

theorem Current.live (h : c.Current r j row) (hlive : r.deletedAt = none) : row.isLive = true :=
  Option.isNone_iff_eq_none.mpr (h.same.live hlive)

theorem Current.nameKey (h : c.Current r j row) :
    row.nameKey = Text.Ascii.lower r.name :=
  congrArg Text.Ascii.lower h.same.name

theorem Current.meets_iff (h : c.Current r j row) (hlive : r.deletedAt = none) :
    meets r row = true ↔ Text.Ascii.lower r.name = r.lowerName ∨ row.spec = r.spec := by
  rw [Catalog.meets_iff, h.nameKey]
  simp only [h.live hlive, true_and]

theorem Current.found_eq (h : c.Current r j row) (hmeets : meets r row = true) :
    c.found r = [c.view (j, row)] := by
  have hmem : c.view (j, row) ∈ c.found r := mem_seen.mpr ⟨row, h.stored, hmeets, rfl⟩
  have hall : ∀ a ∈ c.found r, a.id = j := by
    intro a ha
    obtain ⟨other, hother, hmatch, -⟩ := mem_seen.mp ha
    exact h.only a.id other hother hmatch
  have hapart : (c.found r).Pairwise fun a b => a.id < b.id := pairwise_seen c _
  cases hfound : c.found r with
  | nil =>
      rw [hfound] at hmem
      cases hmem
  | cons a rest =>
      rw [hfound] at hmem hall hapart
      have hnone : rest = [] := by
        apply List.eq_nil_iff_forall_not_mem.mpr
        intro b hb
        have hlt := List.rel_of_pairwise_cons hapart hb
        rw [hall a List.mem_cons_self, hall b (List.mem_cons_of_mem a hb)] at hlt
        exact Int.lt_irrefl j hlt
      subst hnone
      rw [List.mem_singleton.mp hmem]

section
variable {rival : Option Repo} {old : RepoRow}

theorem losesSight_iff (htold : c.Told r rival (some x)) (hold : c.repos.get? x.id = some old) :
    c.LosesSight r ↔ r.spec.isEmpty = true ∧ Text.Ascii.lower r.name ≠ r.lowerName ∧
      old.spec ≠ r.spec := by
  obtain ⟨own, hown, hmeets, -⟩ := htold.own x rfl
  cases hold.symm.trans hown
  constructor
  · rintro ⟨hempty, hname, hnone, -⟩
    exact ⟨hempty, hname, hnone _ _ hold⟩
  · rintro ⟨hempty, hname, hspec⟩
    refine ⟨hempty, hname, fun j row hrow hsame => ?_, x.id, old, hold, ?_⟩
    · rcases htold.all j row hrow (Catalog.meets_iff.mpr (.inr hsame)) with
        ⟨z, hz, rfl⟩ | ⟨z, hz, rfl⟩
      · cases hz
        cases hold.symm.trans hrow
        exact hspec hsame
      · obtain ⟨⟨other, hother, -, -, hne⟩, -⟩ := htold.other z hz
        cases hrow.symm.trans hother
        exact hne hsame
    · exact (Catalog.meets_iff.mp hmeets).resolve_right hspec

theorem not_losesSight (htold : c.Told r none none) : ¬c.LosesSight r := by
  rintro ⟨-, -, -, j, row, hrow, hlive, hname⟩
  rcases htold.all j row hrow (Catalog.meets_iff.mpr (.inl ⟨hlive, hname⟩)) with
    ⟨z, hz, -⟩ | ⟨z, hz, -⟩
  · cases hz
  · cases hz

theorem only_of_told {existing : Option Repo} (htold : c.Told r rival existing)
    (hdeleted : Deleted c (rival.toList.map (·.id)) d)
    (hrows : ∀ i, i ≠ j → e.repos.get? i = d.repos.get? i)
    (hexisting : ∀ z, existing = some z → z.id = j) {i : Int} {other : RepoRow}
    (hother : e.repos.get? i = some other) (hmeets : meets r other = true) : i = j := by
  by_contra hne
  obtain ⟨now, hrepos⟩ := hdeleted.repos
  rw [hrows i hne, hrepos] at hother
  obtain ⟨before, hbefore, rfl⟩ := Option.map_eq_some_iff.mp hother
  by_cases hout : i ∈ rival.toList.map (·.id)
  · rw [if_pos hout] at hmeets
    obtain ⟨z, hz, rfl⟩ := List.mem_map.mp hout
    obtain ⟨⟨seen, hseen, -, -, hspec⟩, -⟩ := htold.other z (Option.mem_toList.mp hz)
    cases hbefore.symm.trans hseen
    rcases Catalog.meets_iff.mp hmeets with ⟨hlive, -⟩ | hsame
    · rw [not_isLive_bury] at hlive
      cases hlive
    · exact hspec ((spec_bury now before).symm.trans hsame)
  · rw [if_neg hout] at hmeets
    rcases htold.all i before hbefore hmeets with ⟨z, hz, hid⟩ | ⟨z, hz, hid⟩
    · exact hne (hid.symm.trans (hexisting z hz))
    · refine hout (List.mem_map.mpr ⟨z, ?_, hid⟩)
      exact Option.mem_toList.mpr hz

end

section
variable {url : String}

theorem Joined.member_url (h : Joined c svc x x' d)
    (hclaim : x.claims.get? svc.urn = some ⟨svc.urn, url⟩) :
    d.members.get? ⟨x'.id, svc.id⟩ = some ⟨url, svc.owner?⟩ := by
  obtain ⟨claim, hown, hmembers⟩ := h.member
  cases hclaim.symm.trans hown
  rw [hmembers, Dict.get?_insert, if_pos rfl]

theorem Joined.same (h : Joined c svc x x' d) (hsvc : c.Holds svc)
    (hclaims : r.claims = .solo svc.urn url)
    (hclaim : x.claims.get? svc.urn = some ⟨svc.urn, url⟩)
    (hsame : x.Same { r with claims := x.claims }) :
    (d.view (x'.id, x'.row)).Same { r with claims := r.claims.union (d.claimsOn x'.id) } := by
  have hown := h.member_url hclaim
  have hheld : d.claimsOn x'.id = (Claims.solo svc.urn url).union (c.claimsOn x'.id) := by
    refine claimsOn_held hsvc h.setting.kindOf? hown fun s hs => ?_
    exact h.member_of_ne fun hk => hs (congrArg MemberKey.service hk)
  have hunion : d.claimsOn x'.id = r.claims.union (d.claimsOn x'.id) := by
    rw [hclaims, hheld, Claims.union_solo_again]
  obtain ⟨_, hsaved, -⟩ := h.saved
  have hrow : x'.row =
      RepoRow.ofRepo x (x'.createdAt.getD default) (x'.updatedAt.getD default) := by
    rw [hsaved.same]
    rfl
  rw [hrow]
  exact ⟨hsame.name, hsame.uri, hsame.description, hsame.isFork, hsame.isArchived, hsame.isPrivate,
    hsame.spec, hunion, hsame.live⟩

theorem Joined.known (h : Joined c svc x x' d) (hsvc : c.Holds svc)
    (hknown : c.KindsKnown x'.id) : d.KindsKnown x'.id := by
  intro s m hm
  rw [h.setting.kindOf?]
  by_cases hs : s = svc.id
  · exact ⟨svc.kind, hs ▸ hsvc.kindOf?⟩
  · rw [h.member_of_ne fun hk => hs (congrArg MemberKey.service hk)] at hm
    exact hknown s m hm

theorem Joined.id_eq_nextId (h : Joined c svc x x' d) (hid : x.id = 0)
    (hspec : ∀ j row, c.repos.get? j = some row → row.spec ≠ x.spec) :
    x'.id = c.repos.nextId := by
  obtain ⟨_, hsaved, -⟩ := h.saved
  rw [hsaved.target]
  rcases targetOf_cases c hid with hnew | ⟨row, hrow, hsame⟩
  · exact hnew
  · exact absurd hsame (hspec _ row hrow)

theorem kindsKnown_nextId (c : Catalog) : c.KindsKnown c.repos.nextId := by
  intro s m hm
  obtain ⟨row, hrow⟩ := repo_of_member hm
  rw [Table.get?_nextId] at hrow
  cases hrow

end

end Catalog

namespace Syncer

open Effect Catalog

variable {y : Syncer} {svc : Service} {r : Repo} {w w' : World} {d : Diff} {url : String}

theorem same_renewed (y : Syncer) (existing r : Repo) (hlive : r.deletedAt = none) :
    (y.renewed existing r).Same { r with claims := (y.renewed existing r).claims } := by
  refine ⟨rfl, rfl, rfl, rfl, rfl, rfl, fun hspec => ?_, rfl, fun _ => ?_⟩
  · unfold renewed Repo.revised
    exact if_neg (Bool.eq_false_iff.mp hspec)
  · unfold renewed Repo.revised
    simp [hlive]

theorem reconcile_known (hs : w.store.catalog.Complete) (h : y.reconcile svc r w = (.ok d, w')) :
    ∀ j row, w.store.catalog.repos.get? j = some row → meets r row = true →
      w.store.catalog.KindsKnown j := by
  unfold reconcile at h
  obtain ⟨matching, v, hlist, -⟩ := bind_ok_iff.mp h
  exact (twins_ok hs (store_ok hlist)).2.2

theorem refresh_current {c : Catalog} {rival : Option Repo} {x : Repo} {old : RepoRow}
    (hs : w.store.catalog.Complete) (hsvc : c.Holds svc) (hlive : r.deletedAt = none)
    (hclaims : r.claims = .solo svc.urn url) (htold : c.Told r rival (some x))
    (hknown : c.KindsKnown x.id) (hold : c.repos.get? x.id = some old)
    (hdeleted : Deleted c (rival.toList.map (·.id)) w.store.catalog)
    (h : y.refresh svc x r w = (.ok d, w')) : ∃ row, w'.store.catalog.Current r x.id row ∧
      row.spec = if r.spec.isEmpty then old.spec else r.spec := by
  have hkept : x.id ∉ rival.toList.map (·.id) := fun hout => (htold.displaced _ hout).1 rfl
  have hmembers : ∀ s, w.store.catalog.members.get? ⟨x.id, s⟩ = c.members.get? ⟨x.id, s⟩ := by
    intro s
    rw [hdeleted.members, if_neg hkept]
  have hkinds := hdeleted.setting.kindOf?
  have hknown' : w.store.catalog.KindsKnown x.id := by
    intro s m hm
    rw [hkinds]
    exact hknown s m ((hmembers s).symm.trans hm)
  have hthere : ∀ z, some x = some z → z.id = x.id := by
    rintro z ⟨⟩
    rfl
  obtain ⟨own, hown, -, hview⟩ := htold.own x rfl
  cases hold.symm.trans hown
  rcases refresh_cases hs h with ⟨hsame, rfl, -⟩ | ⟨-, x', hid, hjoined, -⟩
  · -- Nothing differs; the row is seen now as it was seen then.
    obtain ⟨now, hrepos⟩ := hdeleted.repos
    have hstays : w'.store.catalog.repos.get? x.id = some old := by
      rw [hrepos, hold, Option.map_some, if_neg hkept]
    have hseen : w'.store.catalog.claimsOn x.id = x.claims := by
      rw [claimsOn_congr hkinds hmembers, hview]
      rfl
    have hsame' := Repo.same_of_differs hsame
    refine ⟨old, ⟨hstays, ?_, hknown', fun i other hother hmeets => ?_⟩, ?_⟩
    · have hnow : w'.store.catalog.view (x.id, old) = x := by
        unfold Catalog.view
        rw [hseen, hview]
        rfl
      rw [hnow, hseen]
      exact hsame'
    · exact only_of_told htold hdeleted (fun _ _ => rfl) hthere hother hmeets
    · cases hempty : r.spec.isEmpty with
      | true => rfl
      | false =>
          have hspec := hsame'.spec hempty
          rw [hview] at hspec
          exact hspec
  · have hclaim : (y.renewed x r).claims.get? svc.urn = some ⟨svc.urn, url⟩ := by
      change (r.claims.union x.claims).get? svc.urn = _
      rw [hclaims, Dict.get?_union, Claims.get?_solo, if_pos rfl, Option.some_or]
    have hsvc' := hsvc.of_sameSetting hdeleted.setting
    have hsame := hjoined.same hsvc' hclaims hclaim (same_renewed y x r hlive)
    rw [← hid] at hknown' hthere
    refine ⟨x'.row, ?_, ?_⟩
    · rw [← hid]
      refine ⟨hjoined.row, hsame, hjoined.known hsvc' hknown', fun i other hother hmeets => ?_⟩
      exact only_of_told htold hdeleted (fun i hi => hjoined.row_of_ne hi) hthere hother hmeets
    · obtain ⟨_, hsaved, -⟩ := hjoined.saved
      rw [hsaved.same]
      change (if r.spec.isEmpty then x.spec else r.spec) = _
      rw [hview]
      rfl

theorem introduce_current {c : Catalog} (hs : w.store.catalog.Complete) (hsvc : c.Holds svc)
    (hclaims : r.claims = .solo svc.urn url) (htold : c.Told r none none)
    (hdeleted : Deleted c [] w.store.catalog) (h : y.introduce svc r w = (.ok d, w')) :
    ∃ j row, w'.store.catalog.Current r j row ∧ row.spec = r.spec := by
  obtain ⟨added, hjoined, -⟩ := introduce_joined hs h
  have hsvc' := hsvc.of_sameSetting hdeleted.setting
  have hclaim : r.claims.get? svc.urn = some ⟨svc.urn, url⟩ := by
    rw [hclaims, Claims.get?_solo, if_pos rfl]
  have hnew : added.id = w.store.catalog.repos.nextId := by
    refine hjoined.id_eq_nextId rfl fun j row hrow => ?_
    obtain ⟨now, hrepos⟩ := hdeleted.repos
    rw [hrepos] at hrow
    obtain ⟨old, hold, rfl⟩ := Option.map_eq_some_iff.mp hrow
    exact htold.spec_ne hold
  have hsame := hjoined.same hsvc' hclaims hclaim
    ⟨rfl, rfl, rfl, rfl, rfl, rfl, fun _ => rfl, rfl, fun _ => rfl⟩
  refine ⟨added.id, added.row, ⟨hjoined.row, hsame, hjoined.known hsvc' ?_,
    fun i other hother hmeets => ?_⟩, ?_⟩
  · rw [hnew]
    exact kindsKnown_nextId _
  · refine only_of_told htold hdeleted (fun i hi => hjoined.row_of_ne hi) ?_ hother hmeets
    exact fun z hz => by cases hz
  · obtain ⟨_, hsaved, -⟩ := hjoined.saved
    rw [hsaved.same]
    rfl

/-- A repository that was brought up to date has a current row, which is found unless it is lost
out of sight. -/
theorem reconcile_current (hs : w.store.catalog.Complete) (hsvc : w.store.catalog.Holds svc)
    (hlive : r.deletedAt = none) (hclaims : r.claims = .solo svc.urn url)
    (h : y.reconcile svc r w = (.ok d, w')) : ∃ j row, w'.store.catalog.Current r j row ∧
      (meets r row = true ↔ ¬w.store.catalog.LosesSight r) := by
  have hknown := reconcile_known hs h
  obtain ⟨rival, existing, ds, d', v, v', htold, hstore, hdisplace, rfl, hend⟩ := reconcile_inv hs h
  rw [← hstore] at hs hsvc htold hknown ⊢
  obtain ⟨hdeleted, -⟩ := displace_deleted hs hdisplace
  have hs' := hs.of_version hdeleted.setting.version
  rcases hend with ⟨x, rfl, hrefresh⟩ | ⟨rfl, u, -, hu, hintroduce⟩
  · obtain ⟨old, hold, hmeets, -⟩ := htold.own x rfl
    obtain ⟨row, hcurrent, hspec⟩ := refresh_current hs' hsvc hlive hclaims htold
      (hknown x.id old hold hmeets) hold hdeleted hrefresh
    refine ⟨x.id, row, hcurrent, ?_⟩
    rw [hcurrent.meets_iff hlive, losesSight_iff htold hold, hspec]
    cases hempty : r.spec.isEmpty with
    | true => simp [or_iff_not_imp_left]
    | false => simp
  · cases htold.rival_eq_none
    rw [← hu] at hs' hdeleted
    obtain ⟨j, row, hcurrent, hspec⟩ :=
      introduce_current hs' hsvc hclaims htold hdeleted hintroduce
    refine ⟨j, row, hcurrent, iff_of_true ?_ (not_losesSight htold)⟩
    exact (hcurrent.meets_iff hlive).mpr (.inr hspec)

section
variable {j : Int} {row : RepoRow}

theorem run_reconcile_current (hs : w.store.catalog.Complete) (hfaults : w.faults = [])
    (hcurrent : w.store.catalog.Current r j row) (hmeets : meets r row = true) :
    y.reconcile svc r w =
      (.ok { Diff.empty with unmodified := [w.store.catalog.view (j, row)] }, w) := by
  have hfound := hcurrent.found_eq hmeets
  have hknown : ∀ e ∈ (twins r true).select w.store.catalog, w.store.catalog.KindsKnown e.1 := by
    intro e he
    obtain ⟨hrow, hmatch⟩ := mem_select_twins.mp he
    rw [hcurrent.only e.1 e.2 hrow hmatch]
    exact hcurrent.known
  have hlist : Store.listRepos (twins r true) w.store =
      (.ok (w.store.catalog.found r), w.store) := by
    rw [Store.run_listRepos_of_known hs hknown, seen_twins]
    rfl
  have hmatch : tellApart r (related r (w.store.catalog.found r)) =
      .ok (none, some (w.store.catalog.view (j, row))) := by
    rw [related_found, hfound]
    rfl
  have hrefresh : y.refresh svc (w.store.catalog.view (j, row)) r w =
      (.ok { Diff.empty with unmodified := [w.store.catalog.view (j, row)] }, w) := by
    have hsame : (w.store.catalog.view (j, row)).differs
        { r with claims := r.claims.union (w.store.catalog.view (j, row)).claims } = false :=
      hcurrent.same.differs
    unfold refresh
    simp only [hsame, Bool.false_eq_true, if_false]
    rfl
  have hdisplace : y.displace none w = (.ok [], w) := rfl
  unfold reconcile
  rw [bind_of_ok (run_store hfaults _ _ hlist), hmatch]
  simp only []
  rw [bind_of_ok hdisplace, bind_of_ok hrefresh]
  rfl

theorem run_sync_current (y : Syncer) (svc : Service) (hs : w.store.catalog.Complete)
    (hfaults : w.faults = [])
    (hcurrent : w.store.catalog.Current r j row) (hmeets : meets r row = true) :
    ∃ w', y.sync svc r w =
        (.ok { Diff.empty with unmodified := [w.store.catalog.view (j, row)] }, w') ∧
      w'.store.catalog = w.store.catalog := by
  have hbody : y.reconcile svc r { w with store := opened w.store } =
      (.ok { Diff.empty with unmodified := [w.store.catalog.view (j, row)] },
        { w with store := opened w.store }) :=
    run_reconcile_current (by exact hs) hfaults (by exact hcurrent) hmeets
  generalize { Diff.empty with unmodified := [w.store.catalog.view (j, row)] } = done at hbody ⊢
  let closed : World := { w with store := { opened w.store with saved := w.store.saved } }
  have hdone : transaction .ofStore (y.reconcile svc r) w = (.ok done, closed) :=
    run_transaction_ok hfaults hbody hfaults
  obtain ⟨w', hpublish⟩ := publishSome_total y done closed
  refine ⟨w', ?_, ?_⟩
  · unfold sync
    rw [bind_of_ok hdone, bind_of_ok hpublish]
    rfl
  · rw [(still_publishSome y done).of_run hpublish]
    rfl

theorem not_sync_current (hs : w.store.catalog.Complete) (hlive : r.deletedAt = none)
    (hcurrent : w.store.catalog.Current r j row) (hmeets : ¬meets r row = true) (d : Diff)
    (w' : World) : y.sync svc r w ≠ (.ok d, w') := by
  intro h
  obtain ⟨v, v', hv, hrun, -⟩ := sync_ok h
  have hsame : v.store.catalog = w.store.catalog := catalog_of_opened hv
  rw [← hsame] at hs hcurrent
  obtain ⟨rival, existing, ds, d', u, u', htold, hstore, hdisplace, rfl, hend⟩ :=
    reconcile_inv hs hrun
  have hnobody : ∀ i other, v.store.catalog.repos.get? i = some other → ¬meets r other = true := by
    intro i other hother hmatch
    cases hcurrent.only i other hother hmatch
    cases hother.symm.trans hcurrent.stored
    exact hmeets hmatch
  rcases hend with ⟨x, rfl, -⟩ | ⟨rfl, u'', -, hu, hintroduce⟩
  · obtain ⟨old, hold, hmatch, -⟩ := htold.own x rfl
    exact hnobody x.id old hold hmatch
  · cases htold.rival_eq_none
    rw [← hstore] at htold hs hcurrent
    obtain ⟨hdeleted, -⟩ := displace_deleted hs hdisplace
    obtain ⟨now, hrepos⟩ := hdeleted.repos
    rw [← hu] at hdeleted hrepos
    have hrows : ∀ i, u''.store.catalog.repos.get? i = u.store.catalog.repos.get? i := by
      intro i
      rw [hrepos]
      simp
    obtain ⟨added, hjoined, -⟩ :=
      introduce_joined (hs.of_version hdeleted.setting.version) hintroduce
    have hnew : added.id = u''.store.catalog.repos.nextId :=
      hjoined.id_eq_nextId rfl fun i other hother => htold.spec_ne ((hrows i).symm.trans hother)
    obtain ⟨_, hsaved, -⟩ := hjoined.saved
    have hstays := (hrows j).trans hcurrent.stored
    have hown := hsaved.ownName rfl j row hstays (hcurrent.live hlive) hcurrent.nameKey
    rw [hown, hnew, Table.get?_nextId] at hstays
    cases hstays

end

section
variable (hs : w.store.catalog.Complete) (hsvc : w.store.catalog.Holds svc)
  (hlive : r.deletedAt = none) (hclaims : r.claims = .solo svc.urn url)
  (h : y.sync svc r w = (.ok d, w'))
include hs hsvc hlive hclaims h

theorem sync_current : w'.store.catalog.Complete ∧ ∃ j row, w'.store.catalog.Current r j row ∧
    (meets r row = true ↔ ¬w.store.catalog.LosesSight r) := by
  obtain ⟨v, v', hv, hrun, hcatalog⟩ := sync_ok h
  have hsame : v.store.catalog = w.store.catalog := catalog_of_opened hv
  rw [← hsame] at hs hsvc ⊢
  rw [hcatalog]
  have hversion := (setting_reconcile hs hrun).version
  exact ⟨hs.of_version hversion, reconcile_current hs hsvc hlive hclaims hrun⟩

/-- A repository that was lost out of sight cannot be brought up to date again. -/
theorem not_sync_again (hlost : w.store.catalog.LosesSight r) (y' : Syncer) (d' : Diff)
    (w'' : World) : y'.sync svc r w' ≠ (.ok d', w'') := by
  obtain ⟨hs', j, row, hcurrent, hfound⟩ := sync_current hs hsvc hlive hclaims h
  have hmissed : ¬meets r row = true := fun hmeets => hfound.mp hmeets hlost
  exact not_sync_current hs' hlive hcurrent hmissed d' w''

/-- Brought up to date twice in a row, a repository is left alone the second time, if and only if it
was not lost out of sight the first time. -/
theorem sync_again_iff (hfaults : w'.faults = []) (y' : Syncer) :
    (∃ x w'', y'.sync svc r w' = (.ok { Diff.empty with unmodified := [x] }, w'') ∧
      w''.store.catalog = w'.store.catalog) ↔ ¬w.store.catalog.LosesSight r := by
  constructor
  · rintro ⟨x, w'', hagain, -⟩ hlost
    exact not_sync_again hs hsvc hlive hclaims h hlost y' _ w'' hagain
  · intro hseen
    obtain ⟨hs', j, row, hcurrent, hfound⟩ := sync_current hs hsvc hlive hclaims h
    obtain ⟨w'', hagain, hsame⟩ :=
      run_sync_current y' svc hs' hfaults hcurrent (hfound.mpr hseen)
    exact ⟨_, w'', hagain, hsame⟩

end

/-- A new repository is left alone when it is brought up once more. -/
theorem sync_again_iff_first :
    let y := Sample.syncer []
    let r := Sample.entry "1" "alpha"
    ∃ d w', y.sync Sample.hub r Sample.base = (.ok d, w') ∧ w'.faults = [] ∧
      ∃ x w'', y.sync Sample.hub r w' = (.ok { Diff.empty with unmodified := [x] }, w'') ∧
        w''.store.catalog = w'.store.catalog := by
  intro y r
  have hok : (y.sync Sample.hub r Sample.base).1.isOk = true := by decide
  have hcalm : (y.sync Sample.hub r Sample.base).2.faults = [] := by decide
  cases hrun : y.sync Sample.hub r Sample.base with
  | mk outcome w' =>
      rw [hrun] at hok hcalm
      cases outcome with
      | error e => cases hok
      | ok d =>
          refine ⟨d, w', rfl, hcalm, (sync_again_iff Sample.furnished_base.tables
            Sample.holds_base rfl rfl hrun hcalm y).mpr ?_⟩
          rintro ⟨hempty, -⟩
          exact absurd hempty (by decide)

end Syncer

namespace Sample

/-- A repository of which the host lists no identity. -/
def unnumbered (name : String) : Repo :=
  { entry "" name with spec := .empty }

end Sample

namespace Syncer

open Catalog

/-- A repository that names no identity takes over a row in place of the same name in lower case,
and is kept out by that row from then on. -/
theorem sync_again_refused :
    let y := Sample.syncer []
    let w := (y.perform (.sync Sample.hub (Sample.entry "1" "é")) Sample.base).2
    let r := Sample.unnumbered "É"
    Reachable Repo.ListedBy w.store.catalog ∧ w.store.catalog.Holds Sample.hub ∧
      r.deletedAt = none ∧ r.claims = .solo Sample.hub.urn "É" ∧
      ∃ d w', y.sync Sample.hub r w = (.ok d, w') ∧ w'.faults = [] ∧
        ∀ d' w'', y.sync Sample.hub r w' ≠ (.ok d', w'') := by
  intro y w r
  have hstart : Reachable Repo.ListedBy Sample.base.store.catalog :=
    .start rfl rfl Sample.furnished_base
  have hreach : Reachable Repo.ListedBy w.store.catalog :=
    .pass _ _ hstart (Sample.entry_listedBy "1" "é")
  have hsvc : w.store.catalog.Holds Sample.hub :=
    Sample.holds_base.synced hstart.tidy y Sample.hub rfl
  have hlost : w.store.catalog.LosesSight r := by
    have hrow : ((w.store.catalog.repos.get? 1).map fun row => (row.isLive, row.nameKey)) =
        some (true, r.lowerName) := by decide
    have hnone : ∀ e ∈ w.store.catalog.repos.toList, e.2.spec ≠ r.spec := by decide
    obtain ⟨row, hrow, hkey⟩ := Option.map_eq_some_iff.mp hrow
    obtain ⟨hlive, hname⟩ := Prod.mk.inj hkey
    refine ⟨by decide, by decide, fun j other hother => ?_, 1, row, hrow, hlive, hname⟩
    exact hnone (j, other) (Table.get?_eq_some_iff.mp hother)
  have hok : (y.sync Sample.hub r w).1.isOk = true := by decide
  have hcalm : (y.sync Sample.hub r w).2.faults = [] := by decide
  refine ⟨hreach, hsvc, rfl, rfl, ?_⟩
  cases hrun : y.sync Sample.hub r w with
  | mk outcome w' =>
      rw [hrun] at hok hcalm
      cases outcome with
      | error e => cases hok
      | ok d =>
          refine ⟨d, w', rfl, hcalm, fun d' w'' => ?_⟩
          exact not_sync_again hreach.tidy.furnished.tables hsvc rfl rfl hrun hlost y d' w''

end Syncer

end RepoCatalog
