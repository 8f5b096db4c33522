import RepoCatalog.Proofs.Ceilings

/-!
# Private repositories

Where a user's service may not hold private repositories, a pass that comes to its end leaves it
without any, whatever it held before, and no row ever comes to say what a private repository says.

A private repository is left out before anything is compared, or passed over when it arrives. So
nothing that is written is private, and what is still private at the end was so before and was not
written: a batch has taken it from the service as a row that nothing was listed for, and a stream
has not seen it.
-/
namespace RepoCatalog

open Step
open Time (Instant Duration)

/-- The row says what a repository says; it may have any identity if the repository has none. -/
structure RepoRow.Says (row : RepoRow) (r : Repo) : Prop where
  spec : r.spec.isEmpty = false → row.spec = r.spec
  face : ∀ url, row.face url = { r.row.face url with spec := row.spec }

theorem RepoRow.Says.isPrivate {row : RepoRow} {r : Repo} (h : row.Says r) :
    row.isPrivate = r.isPrivate :=
  congrArg Face.isPrivate (h.face "")

theorem RepoRow.Says.of_face {row row' : RepoRow} {r : Repo} (h : row.Says r)
    (hface : ∀ url, row'.face url = row.face url) : row'.Says r := by
  have hspec : row'.spec = row.spec := congrArg Face.spec (hface "")
  refine ⟨fun hr => hspec.trans (h.spec hr), fun url => ?_⟩
  rw [hface, hspec]
  exact h.face url

namespace Catalog

variable {c d e : Catalog} {svc : Service} {rs : List Repo} {r x x' : Repo}
  {ids keep : List Int} {j : Int}

theorem face_bury (now : Instant) (row : RepoRow) (url : String) :
    (bury now row).face url = row.face url := by
  unfold bury
  split <;> rfl

/-- Every row is what it was, has become a tombstone, or says what one of some repositories says. -/
def Redone (rs : List Repo) (c d : Catalog) : Prop :=
  ∀ j row, d.repos.get? j = some row →
    (∃ old, c.repos.get? j = some old ∧ (row = old ∨ ∃ now, row = bury now old)) ∨
      ∃ r ∈ rs, row.Says r

theorem Redone.of_repos (h : d.repos = c.repos) : Redone rs c d := by
  intro j row hrow
  rw [h] at hrow
  exact .inl ⟨row, hrow, .inl rfl⟩

theorem Redone.refl (rs : List Repo) (c : Catalog) : Redone rs c c :=
  .of_repos rfl

theorem Redone.trans (h : Redone rs c d) (h' : Redone rs d e) : Redone rs c e := by
  intro j row hrow
  rcases h' j row hrow with ⟨mid, hmid, hsame⟩ | hsaid
  · rcases h j mid hmid with ⟨old, hold, hbefore⟩ | ⟨r, hr, hsaid⟩
    · refine .inl ⟨old, hold, ?_⟩
      rcases hsame with rfl | ⟨now, rfl⟩
      · exact hbefore
      · rcases hbefore with rfl | ⟨now', rfl⟩
        · exact .inr ⟨now, rfl⟩
        · exact .inr ⟨now', bury_bury now now' old⟩
    · refine .inr ⟨r, hr, ?_⟩
      rcases hsame with rfl | ⟨now, rfl⟩
      · exact hsaid
      · exact hsaid.of_face (face_bury now mid)
  · exact .inr hsaid

theorem Redone.mono {qs : List Repo} (h : Redone rs c d) (hsub : rs ⊆ qs) : Redone qs c d :=
  fun j row hrow => (h j row hrow).imp_right fun ⟨r, hr, hsaid⟩ => ⟨r, hsub hr, hsaid⟩

theorem Redone.of_buried {p : Int → Prop} [DecidablePred p]
    (h : ∃ now, ∀ j, d.repos.get? j = (c.repos.get? j).map fun row =>
      if p j then bury now row else row) : Redone rs c d := by
  obtain ⟨now, hrepos⟩ := h
  intro j row hrow
  rw [hrepos] at hrow
  obtain ⟨old, hold, rfl⟩ := Option.map_eq_some_iff.mp hrow
  refine .inl ⟨old, hold, ?_⟩
  split
  · exact .inr ⟨now, rfl⟩
  · exact .inl rfl

theorem Deleted.redone (h : Deleted c ids d) (rs : List Repo) : Redone rs c d :=
  .of_buried h.repos

theorem Deleted.row_before (h : Deleted c ids d) {row : RepoRow}
    (hrow : d.repos.get? j = some row) (hlive : row.isLive = true) :
    c.repos.get? j = some row := by
  obtain ⟨now, hrepos⟩ := h.repos
  rw [hrepos] at hrow
  obtain ⟨old, hold, rfl⟩ := Option.map_eq_some_iff.mp hrow
  split at hlive
  · rw [not_isLive_bury] at hlive
    cases hlive
  · rename_i hkept
    rwa [if_neg hkept]

theorem Swept.redone (h : Swept c svc keep ids d) (rs : List Repo) : Redone rs c d :=
  .of_buried h.repos

theorem Joined.says_row (h : Joined c svc x x' d) (hx : x.row.Says r) : x'.row.Says r := by
  obtain ⟨⟨e, hsaved, -⟩, -⟩ := h
  refine hx.of_face fun url => ?_
  rw [hsaved.same]
  rfl

theorem Joined.redone (h : Joined c svc x x' d) (hx : x.row.Says r) : Redone [r] c d := by
  intro j row hrow
  by_cases hj : j = x'.id
  · subst hj
    cases h.row.symm.trans hrow
    exact .inr ⟨r, List.mem_singleton_self r, h.says_row hx⟩
  · rw [h.row_of_ne hj] at hrow
    exact .inl ⟨row, hrow, .inl rfl⟩

theorem SavedAll.row_cases {rs' : List Repo} (h : SavedAll c rs rs' d) {row : RepoRow}
    (hrow : d.repos.get? j = some row) :
    (∃ r ∈ rs, ∀ url, row.face url = r.row.face url) ∨
      (c.repos.get? j = some row ∧ ∀ r' ∈ rs', r'.id ≠ j) := by
  induction h with
  | nil c => exact .inr ⟨hrow, fun r' hr' => (by cases hr')⟩
  | @cons c d e r r' rs rs' hsaved _ ih =>
      rcases ih hrow with ⟨x, hx, hface⟩ | ⟨hrow, hother⟩
      · exact .inl ⟨x, List.mem_cons_of_mem r hx, hface⟩
      rw [hsaved.repos] at hrow
      split at hrow
      · refine .inl ⟨r, List.mem_cons_self, fun url => ?_⟩
        rw [← Option.some.inj hrow, hsaved.same]
        rfl
      · rename_i hj
        exact .inr ⟨hrow, List.forall_mem_cons.mpr ⟨Ne.symm hj, hother⟩⟩

theorem SavedAll.exists_id {rs' : List Repo} (h : SavedAll c rs rs' d) (hr : r ∈ rs)
    (hid : r.id ≠ 0) : ∃ r' ∈ rs', r'.id = r.id := by
  induction h with
  | nil c => cases hr
  | @cons c d e x x' rs rs' hsaved _ ih =>
      rcases List.mem_cons.mp hr with rfl | hr
      · exact ⟨x', List.mem_cons_self, hsaved.target.trans (targetOf_of_id hid)⟩
      · obtain ⟨r', hr', hsame⟩ := ih hr
        exact ⟨r', List.mem_cons_of_mem x' hr', hsame⟩

def Private (c : Catalog) (j : Int) : Prop :=
  ∃ row, c.repos.get? j = some row ∧ row.isLive = true ∧ row.isPrivate = true

theorem Private.of_repos (h : d.Private j) (hrepos : d.repos = c.repos) : c.Private j := by
  unfold Private at h
  rwa [hrepos] at h

theorem Redone.row_before (h : Redone rs c d) (hrs : ∀ r ∈ rs, r.isPrivate = false) {row : RepoRow}
    (hrow : d.repos.get? j = some row) (hlive : row.isLive = true)
    (hprivate : row.isPrivate = true) : c.repos.get? j = some row := by
  rcases h j row hrow with ⟨old, hold, rfl | ⟨now, rfl⟩⟩ | ⟨r, hr, hsaid⟩
  · exact hold
  · rw [not_isLive_bury] at hlive
    cases hlive
  · rw [hsaid.isPrivate, hrs r hr] at hprivate
    cases hprivate

theorem Redone.private_before (h : Redone rs c d) (hrs : ∀ r ∈ rs, r.isPrivate = false)
    (hj : d.Private j) : c.Private j := by
  obtain ⟨row, hrow, hlive, hprivate⟩ := hj
  exact ⟨row, h.row_before hrs hrow hlive hprivate, hlive, hprivate⟩

theorem Deleted.not_private (h : Deleted c ids d) (hj : j ∈ ids) : ¬d.Private j := by
  rintro ⟨row, hrow, hlive, -⟩
  obtain ⟨now, hrepos⟩ := h.repos
  rw [hrepos] at hrow
  obtain ⟨old, -, rfl⟩ := Option.map_eq_some_iff.mp hrow
  rw [if_pos hj, not_isLive_bury] at hlive
  cases hlive

theorem Joined.not_private (h : Joined c svc x x' d) (hx : x.row.Says r)
    (hr : r.isPrivate = false) : ¬d.Private x'.id := by
  rintro ⟨row, hrow, -, hprivate⟩
  cases h.row.symm.trans hrow
  rw [(h.says_row hx).isPrivate, hr] at hprivate
  cases hprivate

/-- The service holds no live private row. -/
def HoldsNothingPrivate (c : Catalog) (svc : Service) : Prop :=
  ∀ j m, c.members.get? ⟨j, svc.id⟩ = some m → ¬c.Private j

end Catalog

namespace Syncer

open Effect Catalog

variable {y : Syncer} {svc : Service} {r : Repo} {w w' : World} {d : Diff}

theorem says_renewed (y : Syncer) (existing r : Repo) : (y.renewed existing r).row.Says r := by
  refine ⟨fun hspec => ?_, fun _ => rfl⟩
  change (if r.spec.isEmpty then existing.spec else r.spec) = r.spec
  rw [hspec, if_neg Bool.false_ne_true]

theorem says_asNew (y : Syncer) (r : Repo) :
    ({ y.asNew r with deletedAt := none } : Repo).row.Says r :=
  ⟨fun _ => rfl, fun _ => rfl⟩

/-- Bringing up a repository changes rows as it says, and if it is public nothing that the
difference tells of is private. -/
theorem reconcile_redone (hs : w.store.catalog.Furnished)
    (h : y.reconcile svc r w = (.ok d, w')) : Redone [r] w.store.catalog w'.store.catalog ∧
      (r.isPrivate = false → ∀ x ∈ d.repos, ¬w'.store.catalog.Private x.id) := by
  obtain ⟨rival, existing, ds, d', v, v', htold, hstore, hdisplace, rfl, hend⟩ :=
    reconcile_inv hs.tables h
  rw [← hstore] at htold hs ⊢
  obtain ⟨hdeleted, hids⟩ := displace_deleted hs.tables hdisplace
  have hs' := hs.of_sameSetting hdeleted.setting
  have hbefore : Redone [r] v.store.catalog v'.store.catalog := hdeleted.redone [r]
  have hpublic : r.isPrivate = false → ∀ q ∈ [r], q.isPrivate = false := by
    intro hr q hq
    rwa [List.mem_singleton.mp hq]
  -- The row that the repository is matched with, or the one that it gets.
  have hown : Redone [r] v'.store.catalog w'.store.catalog ∧ (r.isPrivate = false →
      ∀ x ∈ d'.added ++ d'.modified ++ d'.unmodified, ¬w'.store.catalog.Private x.id) := by
    rcases hend with ⟨x, rfl, hrefresh⟩ | ⟨rfl, u, -, hu, hintroduce⟩
    · rcases refresh_cases hs'.tables hrefresh with ⟨hsame, rfl, rfl⟩ | ⟨-, x', hid, hjoined, rfl⟩
      · refine ⟨.refl _ _, fun hr z hz hprivate => ?_⟩
        cases List.mem_singleton.mp hz
        obtain ⟨row, hrow, -, hview⟩ := htold.own x rfl
        obtain ⟨old, hold, -, hprivate⟩ := hbefore.private_before (hpublic hr) hprivate
        cases hrow.symm.trans hold
        have hsaid : x.isPrivate = row.isPrivate := congrArg Repo.isPrivate hview
        rw [← hsaid, (Repo.same_of_differs hsame).isPrivate, hr] at hprivate
        cases hprivate
      · refine ⟨hjoined.redone (says_renewed y x r), fun hr z hz => ?_⟩
        cases List.mem_singleton.mp hz
        change ¬w'.store.catalog.Private x.id
        rw [← hid]
        exact hjoined.not_private (says_renewed y x r) hr
    · rw [← hu] at hs' ⊢
      obtain ⟨added, hjoined, rfl⟩ := introduce_joined hs'.tables hintroduce
      refine ⟨hjoined.redone (says_asNew y r), fun hr z hz => ?_⟩
      cases List.mem_singleton.mp hz
      exact hjoined.not_private (says_asNew y r) hr
  refine ⟨hbefore.trans hown.1, fun hr x hx hprivate => ?_⟩
  have htells : x ∈ ds ∨ x ∈ d'.added ++ d'.modified ++ d'.unmodified := by
    unfold Diff.repos at hx
    simp only [List.mem_append] at hx ⊢
    tauto
  rcases htells with hx | hx
  · have hgone : x.id ∈ rival.toList.map (·.id) := hids ▸ List.mem_map_of_mem hx
    exact hdeleted.not_private hgone (hown.1.private_before (hpublic hr) hprivate)
  · exact hown.2 hr x hx hprivate

theorem sync_redone (hs : w.store.catalog.Furnished) (h : y.sync svc r w = (.ok d, w')) :
    Redone [r] w.store.catalog w'.store.catalog ∧
      (r.isPrivate = false → ∀ x ∈ d.repos, ¬w'.store.catalog.Private x.id) := by
  obtain ⟨v, v', hv, hrun, hcatalog⟩ := sync_ok h
  have hsame : v.store.catalog = w.store.catalog := catalog_of_opened hv
  rw [hcatalog, ← hsame]
  exact reconcile_redone (hsame ▸ hs) hrun

section
variable {c e : Catalog} {sourced : List Repo} {x old : Repo}

theorem says_of_planned
    (hx : x ∈ (planned c svc sourced).modified ++ (planned c svc sourced).added) :
    ∃ r ∈ sourced, x.spec = r.spec ∧ x.row.Says r := by
  rw [planned_written] at hx
  have hx := (List.mem_filter.mp hx).1
  rw [compared_eq, List.mem_append] at hx
  rcases hx with hx | hx
  · obtain ⟨old, -, hx⟩ := List.mem_filterMap.mp hx
    have hkept := Diff.spec_of_revision hx
    unfold Diff.revision at hx
    obtain ⟨listed, hget, hx⟩ := Option.bind_eq_some_iff.mp hx
    split at hx
    · cases hx
      obtain ⟨hmatch, r, hr, hlisted⟩ := survivor_origin hget
      have hspec : (old.revised listed).spec = r.spec := by
        rw [hkept, ← hmatch, hlisted]
      refine ⟨r, hr, hspec, fun _ => hspec, fun _ => ?_⟩
      rw [hlisted]
      rfl
    · cases hx
  · obtain ⟨spec, hget⟩ := Dict.mem_values.mp hx
    rw [Diff.get?_arrivals] at hget
    split at hget
    · cases hget
    · obtain ⟨-, r, hr, hlisted⟩ := survivor_origin hget
      rw [hlisted]
      exact ⟨r, hr, rfl, fun _ => rfl, fun _ => rfl⟩

theorem lost_of_deleted (hids : ∀ r ∈ sourced, r.id = 0) (hold : c.Shows old)
    (hx : x ∈ (planned c svc sourced).deleted) (hspec : x.spec = old.spec) :
    x.id = old.id ∧ x.claims.get? svc.urn = none := by
  have hreleases : Releases c svc _ _ := releases_plan hids
  obtain ⟨old', hold', hid, hspec', hclaims⟩ := hreleases.deleted x hx
  obtain rfl := (hreleases.shown old' hold').eq_of_spec hold (hspec'.symm.trans hspec)
  refine ⟨hid, ?_⟩
  rcases hclaims with hclaims | hclaims
  · rw [hclaims, Dict.get?_empty]
  · rw [hclaims, Dict.get?_erase, if_pos rfl]

/-- What is stored is written, is listed and as private as it is listed, or is taken from the
service. -/
theorem fate_of_stored (hrows : ∀ j row, c.repos.get? j = some row → j ≠ 0)
    (hids : ∀ r ∈ sourced, r.id = 0)
    (hold : old ∈ (stakeIn c svc.id sourced).stored) :
    (∃ x ∈ (planned c svc sourced).modified, x.id = old.id) ∨
      (∃ r ∈ sourced, old.spec = r.spec ∧ old.isPrivate = r.isPrivate) ∨
      ∃ x ∈ (planned c svc sourced).deleted, x.id = old.id ∧ x.claims.get? svc.urn = none := by
  obtain ⟨dropped, hres⟩ := planned_resolved c svc sourced
  have hshows := (mem_stored.mp hold).1
  cases hget : (Diff.survivorsOf (sourced.map (withStoredClaims
      (claimsBySpec (stakeIn c svc.id sourced).stored)))).get? old.spec with
  | some listed =>
      obtain ⟨hmatch, r, hr, hlisted⟩ := survivor_origin hget
      by_cases hdiffers : old.differs listed = true
      · have hrevised := Diff.revision_of_differs hget hdiffers
        have hmem : old.revised listed ∈ (compared c svc sourced).modified := by
          rw [compared_eq]
          exact List.mem_filterMap.mpr ⟨old, hold, hrevised⟩
        cases hwins : wins (stakeIn c svc.id sourced).conflicting (old.revised listed) with
        | true =>
            refine .inl ⟨old.revised listed, ?_, rfl⟩
            rw [hres.modified]
            exact List.mem_filter.mpr ⟨hmem, hwins⟩
        | false =>
            obtain ⟨row, hrow, -⟩ := hshows
            have hne : (old.revised listed).id ≠ 0 := hrows _ _ hrow
            obtain ⟨x, hx, hspec⟩ := hres.lost _ (List.mem_append_right _ hmem) hwins hne
            exact .inr (.inr ⟨x, hx, lost_of_deleted hids (mem_stored.mp hold).1 hx
              (hspec.trans (Diff.spec_of_revision hrevised))⟩)
      · refine .inr (.inl ⟨r, hr, ?_, ?_⟩)
        · rw [← hmatch, hlisted]
        · rw [(Repo.same_of_differs (Bool.eq_false_iff.mpr hdiffers)).isPrivate, hlisted]
  | none =>
      obtain ⟨x, hx, hspec⟩ := Diff.exists_departure (some svc.urn) _ hget
      have hmem : x ∈ (planned c svc sourced).deleted := by
        rw [hres.deleted, compared_eq]
        exact List.mem_append_left _ (List.mem_filterMap.mpr ⟨old, hold, hx⟩)
      exact .inr (.inr ⟨x, hmem, lost_of_deleted hids hshows hmem hspec⟩)

/-- A membership for which a batch stores nothing was there before, and was not to be dropped. -/
theorem member_before {c₁ c₂ c₄ c₅ : Catalog} {stale fresh : MembershipEdits} {ids : List Int}
    {k : MemberKey} {m : Membership}
    (hstripped : Edited c { MembershipEdits.empty with deleted := stale.deleted } c₁)
    (hdeleted : Deleted c₁ ids c₂) (hkept : c₄.members = c₂.members)
    (hjoined : Edited c₄ { fresh with deleted := ∅ } c₅)
    (hnone : ∀ claim, ¬({ fresh with deleted := ∅ } : MembershipEdits).Stores k claim)
    (hm : c₅.members.get? k = some m) :
    ({ MembershipEdits.empty with deleted := stale.deleted } : MembershipEdits).drops k = false ∧
      c.members.get? k = some m := by
  have hnew : ∀ claim, ¬({ MembershipEdits.empty with deleted := stale.deleted } :
      MembershipEdits).Stores k claim := by
    rintro claim ⟨h | h, -⟩ <;> cases h
  rw [hjoined.get?_of_not_stores hnone] at hm
  change c₄.members.get? k = some m at hm
  rw [hkept, hdeleted.members] at hm
  split at hm
  · cases hm
  · rw [hstripped.get?_of_not_stores hnew] at hm
    split at hm
    · cases hm
    · rename_i hstays
      exact ⟨Bool.eq_false_iff.mpr hstays, hm⟩

theorem says_of_stamped {now : Time.Instant} {x : Repo}
    (hx : x ∈ (stamp now (planned c svc sourced)).modified ++
      (stamp now (planned c svc sourced)).added) :
    ∃ r ∈ sourced, x.spec = r.spec ∧ x.row.Says r := by
  have hplanned : ∃ z ∈ (planned c svc sourced).modified ++ (planned c svc sourced).added,
      x.spec = z.spec ∧ ∀ url, x.row.face url = z.row.face url := by
    rcases List.mem_append.mp hx with hx | hx
    · obtain ⟨z, hz, rfl⟩ := List.mem_map.mp hx
      exact ⟨z, List.mem_append_left _ hz, rfl, fun _ => rfl⟩
    · obtain ⟨z, hz, rfl⟩ := List.mem_map.mp hx
      exact ⟨z, List.mem_append_right _ hz, rfl, fun _ => rfl⟩
  obtain ⟨z, hz, hspec, hface⟩ := hplanned
  obtain ⟨r, hr, hlisted, hz⟩ := says_of_planned hz
  exact ⟨r, hr, hspec.trans hlisted, hz.of_face hface⟩

theorem held_listed {c₁ c₂ c₃ c₄ c₅ : Catalog} {now : Instant} {ms as : List Repo}
    (hstripped : Edited c { MembershipEdits.empty with
      deleted := (MembershipEdits.ofDiff (planned c svc sourced)
        (atStake c svc sourced)).deleted } c₁)
    (hdeleted : Deleted c₁ (((planned c svc sourced).deleted.filter isOrphaned).map (·.id)) c₂)
    (hmodified : SavedAll c₂ (stamp now (planned c svc sourced)).modified ms c₃)
    (hadded : SavedAll c₃ (stamp now (planned c svc sourced)).added as c₄)
    (hjoined : Edited c₄ { MembershipEdits.ofDiff { stamp now (planned c svc sourced) with
      modified := ms, added := as } (atStake c svc sourced) with deleted := ∅ } c₅)
    (hrows : ∀ j row, c.repos.get? j = some row → j ≠ 0) (hsvc : c.Holds svc)
    (hrange : Urn.InRange svc.id) (hids : ∀ r ∈ sourced, r.id = 0) {j : Int} {m : Membership}
    {row : RepoRow} (hm : c₅.members.get? ⟨j, svc.id⟩ = some m) (hrow : c₅.repos.get? j = some row)
    (hlive : row.isLive = true) :
    ∃ r ∈ sourced, row.spec = r.spec ∧ row.isPrivate = r.isPrivate := by
  have hreleases : Releases c svc (atStake c svc sourced) (planned c svc sourced) :=
    releases_plan hids
  rw [hjoined.repos] at hrow
  rcases (hmodified.append hadded).row_cases hrow with ⟨x, hx, hface⟩ | ⟨hrow, hother⟩
  · obtain ⟨r, hr, hspec, hx⟩ := says_of_stamped hx
    have hsame : row.spec = x.spec := congrArg Face.spec (hface "")
    exact ⟨r, hr, hsame.trans hspec, (hx.of_face hface).isPrivate⟩
  -- The row was not written, so it is one that the service held all along.
  have hold : c.repos.get? j = some row := by
    rw [← hstripped.repos]
    exact hdeleted.row_before hrow hlive
  have hne : j ≠ 0 := hrows j row hold
  obtain ⟨hstays, hm⟩ := member_before hstripped hdeleted
    (hadded.members.trans hmodified.members) hjoined
    (not_stores_unwritten hreleases hne hother svc.id) hm
  have hshows : c.Shows (c.view (j, row)) := ⟨row, hold, hlive, rfl⟩
  have hstored : c.view (j, row) ∈ (stakeIn c svc.id sourced).stored :=
    mem_stored.mpr ⟨hshows, .inl (Option.isSome_iff_exists.mpr ⟨m, hm⟩)⟩
  rcases fate_of_stored hrows hids hstored with ⟨x, hx, hid⟩ | hlisted | ⟨x, hx, hid, hlost⟩
  · have hx' := List.mem_map_of_mem (f := fun r : Repo =>
      { r with updatedAt := some now, deletedAt := none }) hx
    obtain ⟨x', hx', hid'⟩ := hmodified.exists_id hx' (by exact hid ▸ hne)
    exact absurd (hid'.trans hid) (hother x' (List.mem_append_left _ hx'))
  · exact hlisted
  · have hdrops := drops_of_released (k := ⟨j, svc.id⟩) hreleases hx
      (List.mem_append_left _ hstored) hid hid hne ((hshows.get?_own hsvc).mpr ⟨m, hm, rfl⟩) hlost
      (Urn.serviceId?_format_of_inRange svc.kind hrange)
    cases hstays.symm.trans hdrops

/-- A batch of public repositories writes nothing that a private one says, and leaves the service
with none. -/
theorem carried_discreet (h : Carried c (atStake c svc sourced) (planned c svc sourced) e)
    (hc : c.Rooted) (hsvc : c.Holds svc) (hids : ∀ r ∈ sourced, r.id = 0)
    (hpublic : ∀ r ∈ sourced, r.isPrivate = false) :
    Redone sourced c e ∧ e.HoldsNothingPrivate svc := by
  obtain @⟨c₁, c₂, c₃, c₄, c₅, ms, as, now, hstripped, hdeleted, hmodified, hadded, hjoined,
    hvisited⟩ := h
  constructor
  · have hbefore : Redone sourced c c₂ :=
      (Redone.of_repos hstripped.repos).trans (hdeleted.redone sourced)
    have hredone : Redone sourced c₂ c₄ := by
      intro j row hrow
      rcases (hmodified.append hadded).row_cases hrow with ⟨x, hx, hface⟩ | ⟨hrow, -⟩
      · obtain ⟨r, hr, -, hx⟩ := says_of_stamped hx
        exact .inr ⟨r, hr, hx.of_face hface⟩
      · exact .inl ⟨row, hrow, .inl rfl⟩
    exact (hbefore.trans hredone).trans (.of_repos (hvisited.repos.trans hjoined.repos))
  · rintro j m hm ⟨row, hrow, hlive, hprivate⟩
    rw [hvisited.members] at hm
    rw [hvisited.repos] at hrow
    obtain ⟨r, hr, -, hsame⟩ := held_listed hstripped hdeleted hmodified hadded hjoined
      (fun j row hrow => Int.ne_of_gt (hc.ids j row hrow)) hsvc (hsvc.range hc.furnished).2 hids
      hm hrow hlive
    rw [hsame, hpublic r hr] at hprivate
    cases hprivate

end

/-- What holds while a stream is read from which private repositories are left out. -/
structure Restrained (listed : List Repo) (c : Catalog) (s : Stream) : Prop where
  setting : SameSetting c s.world.store.catalog
  redone : Redone listed c s.world.store.catalog
  sound : s.defect = none
  seen : ∀ i ∈ s.seen, ¬s.world.store.catalog.Private i

variable {c : Catalog} {listed : List Repo} {items : List Item} {least : Duration}
  {result : Except (Abort SyncError) Unit}

theorem Restrained.takeItem {s : Stream} (h : Restrained listed c s) (hc : c.Furnished) (y : Syncer)
    (svc : Service) {item : Item}
    (hitem : ∀ r, item = .ok r → r.isPrivate = false → r ∈ listed) :
    Restrained listed c (y.takeItem svc false s item).1 := by
  have hs := hc.of_sameSetting h.setting
  cases item with
  | error e =>
      refine ⟨?_, ?_, ?_, ?_⟩ <;> unfold Syncer.takeItem Stream.refuse <;> simp only [] <;> split
      · exact h.setting
      · exact h.setting
      · exact h.redone
      · exact h.redone
      · exact h.sound
      · exact h.sound
      · exact fun i hi => (by cases hi)
      · exact h.seen
  | ok r =>
      by_cases hprivate : (r.isPrivate && !false) = true
      · have hpassed : y.takeItem svc false s (.ok r) = (s, true) := if_pos hprivate
        rw [hpassed]
        exact h
      have hpublic : r.isPrivate = false := by simpa using hprivate
      have hin : [r] ⊆ listed := by
        intro q hq
        rw [List.mem_singleton.mp hq]
        exact hitem r rfl hpublic
      cases hrun : y.sync svc r s.world with
      | mk answer v =>
          have hsetting := h.setting.trans
            ((within_sync_givesNobodyElse y svc r).of_run hrun hs).setting
          rw [takeItem_synced hprivate hrun]
          cases answer with
          | ok d =>
              obtain ⟨hredone, hfree⟩ := sync_redone hs hrun
              refine ⟨hsetting, h.redone.trans (hredone.mono hin), h.sound, fun i hi => ?_⟩
              rcases List.mem_append.mp hi with hi | hi
              · obtain ⟨x, hx, rfl⟩ := List.mem_map.mp (List.mem_filter.mp hi).1
                exact hfree hpublic x hx
              · refine fun hbad => h.seen i hi (hredone.private_before (fun q hq => ?_) hbad)
                rwa [List.mem_singleton.mp hq]
          | error e =>
              obtain ⟨error, rfl⟩ := sync_error hs hrun
              have hsame : v.store.catalog = s.world.store.catalog :=
                (untouched_of_sync hrun).catalog
              refine ⟨hsetting, ?_, h.sound, ?_⟩
              · exact hsame ▸ h.redone
              · exact hsame ▸ h.seen

theorem Restrained.readAll {s : Stream} (h : Restrained listed c s) (hc : c.Furnished) (y : Syncer)
    (svc : Service) (hitems : ∀ r, .ok r ∈ items → r.isPrivate = false → r ∈ listed) :
    Restrained listed c ((y.streamReader svc false).readAll s items).1 := by
  let keeps : Stream → Stream → Prop := fun s t => Restrained listed c s → Restrained listed c t
  have : Chained keeps := ⟨fun _ h => h, fun h h' hs => h' (h hs)⟩
  refine Reader.readAll_rel (y.streamReader svc false) (R := keeps) items
    (fun item hitem t ht => ?_) s h
  exact ht.takeItem hc y svc fun r hr => hitems r (hr ▸ hitem)

theorem readStream_restrained (hs : w.store.catalog.Furnished)
    (hitems : ∀ r, .ok r ∈ items → r.isPrivate = false → r ∈ listed)
    {answer : Except (Abort SyncError) Stream} (h : y.readStream svc false items w = (answer, w')) :
    (answer = .error (.failed .cancelled) ∧ Redone listed w.store.catalog w'.store.catalog) ∨
      ∃ s, answer = .ok s ∧ s.world = w' ∧ Restrained listed w.store.catalog s := by
  have hstart : Restrained listed w.store.catalog (Stream.start w) :=
    ⟨.refl _, .refl _ _, rfl, fun i hi => (by cases hi)⟩
  have hend := hstart.readAll hs y svc hitems
  rw [readStream_eq] at h
  cases hread : (y.streamReader svc false).readAll (Stream.start w) items with
  | mk s ending =>
      rw [hread] at hend h
      have hsound : s.defect = none := hend.sound
      simp only [hsound] at h
      cases ending with
      | cancelled =>
          cases h
          exact .inl ⟨rfl, hend.redone⟩
      | exhausted =>
          cases h
          exact .inr ⟨s, rfl, rfl, hend⟩
      | stopped =>
          cases h
          exact .inr ⟨s, rfl, rfl, hend⟩

/-- Whether a streaming pass that ends so has committed its final sweep. -/
def hasSwept : Except (Abort SyncError) Unit → Bool
  | .ok _ => true
  | .error (.failed (.multi _)) => true
  | .error (.failed (.store context _)) =>
      ["listing swept repos", "updating external service"].contains context
  | .error (.failed _) => false
  | .error (.defect d) => d = .timeAfterEnd

theorem unswept_sweep (svc : Service) (keep : List Int) :
    Fails (fun e => hasSwept (.error e) = false) (transaction (.store "sweeping unseen repos")
      (store "sweeping unseen repos" .sweep (Store.sweep svc keep))) :=
  have hcontext : ∀ context e, context ∈ ["opening transaction", "sweeping unseen repos"] →
      hasSwept (.error (.failed (.store context e))) = false := by
    intro context e hcontext
    rcases List.mem_pair.mp hcontext with rfl | rfl
    · change List.contains _ "opening transaction" = false
      decide
    · change List.contains _ "sweeping unseen repos" = false
      decide
  fails_transaction (fun e => hcontext _ e (by decide)) (fun e => hcontext _ e (by decide))
    (fails_store _ _ _ fun e => hcontext _ e (by decide))

theorem unswept_allowsPrivate (y : Syncer) (svc : Service) :
    Fails (fun e => hasSwept (.error e) = false) (y.allowsPrivate svc) := by
  refine fails_allowsPrivate y svc fun e => ?_
  change List.contains _ "checking private code permission" = false
  decide

/-- What a streaming pass does after its final sweep. -/
def afterSweep (y : Syncer) (svc : Service) (least : Duration) (s : Stream) (swept : List Int) :
    Pass Unit := do
  let lost ← y.tellSwept swept
  y.recordVisit svc
    (Resync.afterStream y.now svc.lastSyncAt least (s.modified || lost) (!s.errors.isEmpty))
  Effect.ofExcept (SyncError.bundle s.errors)

theorem closing_eq (y : Syncer) (svc : Service) (least : Duration) (s : Stream) :
    y.closing svc least s = transaction (.store "sweeping unseen repos")
      (store "sweeping unseen repos" .sweep (Store.sweep svc s.seen)) >>=
        y.afterSweep svc least s := by
  unfold closing
  rw [sweepUnseen_eq]
  exact bind_assoc _ _ _

theorem swept_afterSweep (y : Syncer) (svc : Service) (least : Duration) (s : Stream)
    (swept : List Int) :
    Fails (fun e => hasSwept (.error e) = true) (y.afterSweep svc least s swept) := by
  have hcontext : ∀ context e, context ∈ ["listing swept repos", "updating external service"] →
      hasSwept (.error (.failed (.store context e))) = true :=
    fun _ _ h => List.contains_iff_mem.mpr h
  refine Fails.bind ?_ fun lost => Fails.bind ?_ fun _ => ?_
  · unfold tellSwept
    split
    · exact .pure _
    · exact (fails_store _ _ _ fun e => hcontext _ e (by decide)).bind fun _ =>
        (fails_publish y _).bind fun _ => .pure _
  · unfold recordVisit
    split
    · exact .breakOff rfl
    · exact (fails_store _ _ _ fun e => hcontext _ e (by decide)).bind fun _ => .pure _
  · cases s.errors with
    | nil => exact .pure _
    | cons e es => exact .fail rfl

theorem visited_afterSweep (y : Syncer) (hid : svc.id ≠ 0) (least : Duration) (s : Stream)
    (swept : List Int) : Within (OnFurnished fun c d => c.Furnished → Visited c d)
      (y.afterSweep svc least s swept) := by
  have htell : ∀ d, Within (OnFurnished fun c d => c.Furnished → Visited c d) (y.publish d) :=
    fun d v => .of_store (fun _ => .refl) (still_publish y d v)
  exact Within.bind (asks_tellSwept htell swept) fun _ =>
    Within.bind (visited_recordVisit y hid _) fun _ => within_ofExcept _

/-- From where its items have been taken, a streaming pass commits its final sweep, or it leaves
tables and audience alone. -/
theorem closing_sweeps {s : Stream} (hs : w.store.catalog.Furnished) (hid : svc.id ≠ 0)
    (h : y.closing svc least s w = (result, w')) :
    hasSwept result = false ∧ Untouched w w' ∨
      hasSwept result = true ∧ ∃ ids d, Swept w.store.catalog svc s.seen ids d ∧
        Visited d w'.store.catalog := by
  rw [closing_eq] at h
  have hsaved : Within SameSaved (store "sweeping unseen repos" .sweep (Store.sweep svc s.seen)) :=
    on_store (Store.within_sweep svc s.seen)
  rcases bind_cases h with ⟨e, hdone, rfl⟩ | ⟨ids, v, hdone, hrest⟩
  · exact .inl ⟨unswept_sweep svc s.seen w e _ hdone,
      untouched_of_transaction hsaved (outward_store _ _ _) hdone⟩
  · obtain ⟨u, u', hu, hrun, hcatalog⟩ := transaction_ok hsaved hdone
    have hsame : u.store.catalog = w.store.catalog := catalog_of_opened hu
    have hswept := Store.sweep_ok (hsame ▸ hs) (store_ok hrun)
    rw [hsame, ← hcatalog] at hswept
    have hv := hs.of_sameSetting hswept.setting
    refine .inr ⟨?_, ids, _, hswept, (visited_afterSweep y hid least s ids).of_run hrest hv hv⟩
    cases result with
    | ok _ => rfl
    | error e => exact swept_afterSweep y svc least s ids v e w' hrest

theorem Restrained.closed {s : Stream} (h : Restrained listed c s) (hc : c.Furnished)
    (hpublic : ∀ r ∈ listed, r.isPrivate = false) (hid : svc.id ≠ 0)
    (hrun : y.closing svc least s s.world = (result, w')) : Redone listed c w'.store.catalog ∧
      (hasSwept result = true → w'.store.catalog.HoldsNothingPrivate svc) := by
  rcases closing_sweeps (hc.of_sameSetting h.setting) hid hrun with
    ⟨hunswept, hleft⟩ | ⟨-, ids, d, hswept, hvisited⟩
  · rw [hleft.catalog]
    refine ⟨h.redone, fun hdone => ?_⟩
    cases hunswept.symm.trans hdone
  · refine ⟨(h.redone.trans (hswept.redone listed)).trans (.of_repos hvisited.repos), ?_⟩
    intro _ j m hm hprivate
    -- What the service still holds was seen.
    rw [hvisited.members, hswept.members] at hm
    split at hm
    · cases hm
    · rename_i hkept
      have hseen : j ∈ s.seen := by
        by_contra hunseen
        exact hkept ⟨rfl, (hswept.taken j).mpr ⟨⟨m, hm⟩, hunseen⟩⟩
      exact h.seen j hseen ((hswept.redone listed).private_before hpublic
        (hprivate.of_repos hvisited.repos))

/-- A streaming pass that may not bring up private repositories writes nothing that one says, and
once it has swept the service holds none. -/
theorem stream_discreet (hs : w.store.catalog.Furnished) (hid : svc.id ≠ 0)
    (hsees : y.sees w.store.catalog svc = false) (hsource : y.sourceOf svc = .ok items)
    (hitems : ∀ r, .ok r ∈ items → r.isPrivate = false → r ∈ listed)
    (hpublic : ∀ r ∈ listed, r.isPrivate = false)
    (hrun : y.stream svc least w = (result, w')) : Redone listed w.store.catalog w'.store.catalog ∧
      (hasSwept result = true → w'.store.catalog.HoldsNothingPrivate svc) := by
  rw [stream_eq] at hrun
  have hasks : Within SameStore (y.allowsPrivate svc) := asks_allowsPrivate y svc
  rcases bind_cases hrun with ⟨e, hallowed, rfl⟩ | ⟨allowed, v, hallowed, hrun⟩
  · rw [hasks.of_run hallowed]
    refine ⟨.refl _ _, fun hdone => ?_⟩
    cases (unswept_allowsPrivate y svc w e _ hallowed).symm.trans hdone
  have hsame : v.store = w.store := hasks.of_run hallowed
  obtain rfl : allowed = false := (allowsPrivate_ok hs hallowed).trans hsees
  rw [bind_of_ok (run_itemsOf hsource v), run_bind] at hrun
  rw [← hsame] at hs ⊢
  cases hread : y.readStream svc false items v with
  | mk outcome u =>
  rw [hread] at hrun
  rcases readStream_restrained hs hitems hread with ⟨rfl, hredone⟩ | ⟨s, rfl, rfl, hrestrained⟩
  · cases hrun
    exact ⟨hredone, fun hdone => (by cases hdone)⟩
  · exact hrestrained.closed hs hpublic hid hrun

def publicOf (items : List Item) : List Repo :=
  (Listing.ofItems items).repos.filter fun r => !r.isPrivate

theorem mem_publicOf : r ∈ publicOf items ↔ .ok r ∈ items ∧ r.isPrivate = false := by
  unfold publicOf Listing.ofItems
  rw [List.mem_filter, List.mem_filterMap, Bool.not_eq_true']
  refine and_congr_left fun _ => ⟨?_, fun hr => ⟨.ok r, hr, rfl⟩⟩
  rintro ⟨item, hitem, hrepo⟩
  cases item with
  | ok q =>
      cases hrepo
      exact hitem
  | error e => cases hrepo

/-- A batch pass that may not bring up private repositories writes nothing that one says, and once
it has committed the service holds none. -/
theorem batch_discreet (hc : w.store.catalog.Rooted) (hsvc : w.store.catalog.Holds svc)
    (howner : svc.owner?.isSome = true) (hsees : y.sees w.store.catalog svc = false)
    (hsource : y.sourceOf svc = .ok items) (hids : ∀ r, .ok r ∈ items → r.id = 0)
    (hrun : y.batch svc least w = (result, w')) :
    Redone (publicOf items) w.store.catalog w'.store.catalog ∧
      (hasCommitted result = true → w'.store.catalog.HoldsNothingPrivate svc) := by
  have hread : Untouched w (y.reading svc w).2 := within_reading_quietly (.inr howner) w
  rcases batch_cases hrun with ⟨hfailed, hleft⟩ | ⟨-, d, hcommitted⟩
  · refine ⟨.of_repos ?_, fun hdone => ?_⟩
    · rw [hleft.catalog, hread.catalog]
    · cases hfailed.symm.trans hdone
  obtain ⟨items', sourced, failure, allowed, u, u', hitems, hjudged, -, hsees', hu, happlied,
    hcatalog⟩ := (hcommitted.of_untouched hread).written
  cases hsource.symm.trans hitems
  obtain rfl : allowed = false := (hsees' hc.furnished).trans hsees
  have hcarried := applyBatch_ok (hu ▸ hc.furnished) (Int.ne_of_gt (hsvc.range hc.furnished).1)
    happlied
  rw [hu, ← hcatalog, if_neg Bool.false_ne_true] at hcarried
  have hshown : ∀ r ∈ sourced.filter fun r => !r.isPrivate,
      .ok r ∈ items ∧ r.isPrivate = false := by
    intro r hr
    obtain ⟨hr, hpublic⟩ := List.mem_filter.mp hr
    exact ⟨ok_of_judge hjudged r hr, by simpa using hpublic⟩
  obtain ⟨hredone, hnothing⟩ := carried_discreet hcarried hc hsvc
    (fun r hr => hids r (hshown r hr).1) fun r hr => (hshown r hr).2
  exact ⟨hredone.mono fun r hr => mem_publicOf.mpr (hshown r hr), fun _ => hnothing⟩

end Syncer

namespace Sample

/-- A private repository as the service of the user lists it. -/
def secret (id name : String) : Repo :=
  { ownEntry id name with isPrivate := true }

def ownStored : Service :=
  { own with createdAt := some ⟨1000⟩, updatedAt := some ⟨1000⟩ }

/-- The store of the user while the service may hold private repositories, and does. -/
def secretive : World :=
  ((syncer []).perform (.sync ownStored (secret "1" "alpha")) owned).2

/-- Whoever makes passes that may bring up public repositories only. -/
def confined (items : List Item) : Syncer :=
  { syncer items with settings := { (syncer items).settings with userMode := .publicOnly } }

/-- Of the second repository, one entry is public and one is private. -/
def mixed : List Item :=
  [.ok (secret "1" "alpha"), .ok (ownEntry "2" "beta"), .ok (secret "2" "beta")]

theorem holds_owned : owned.store.catalog.Holds ownStored :=
  ⟨(owned.store.catalog.services.get? 2).get rfl, rfl, rfl⟩

theorem secretive_reached : Catalog.Reachable Repo.ListedBy secretive.store.catalog ∧
    secretive.store.catalog.Holds ownStored := by
  have hstart : Catalog.Reachable Repo.ListedBy owned.store.catalog :=
    .start rfl rfl furnished_owned
  have hlisted : (secret "1" "alpha").ListedBy ownStored := ⟨rfl, rfl, "alpha", rfl⟩
  refine ⟨.pass _ _ hstart hlisted, ?_⟩
  exact holds_owned.synced hstart.tidy (syncer []) ownStored hlisted.live

end Sample

namespace Catalog

open Effect Syncer

/-- A user's service that may not hold private repositories holds none once a pass has come to its
end, also none that it held before; and no pass creates a row from a private repository or changes
one as it says. -/
theorem passes_withhold_private {p : Service → Repo → Prop} {y : Syncer} {svc : Service}
    {user : Int} {items : List Item} {least : Duration} {w : World}
    (hreach : Reachable p w.store.catalog) (hsvc : w.store.catalog.Holds svc)
    (howner : svc.owner? = some user) (hmode : y.settings.userMode ≠ .all)
    (hdenied : (w.store.catalog.users.get? user).any (·.allowsPrivate) = false)
    (hsource : y.sourceOf svc = .ok items) (hids : ∀ r, .ok r ∈ items → r.id = 0) :
    (∀ result w', y.batch svc least w = (result, w') →
      Redone (publicOf items) w.store.catalog w'.store.catalog ∧
        (hasCommitted result = true → w'.store.catalog.HoldsNothingPrivate svc)) ∧
    ∀ result w', y.stream svc least w = (result, w') →
      Redone (publicOf items) w.store.catalog w'.store.catalog ∧
        (hasSwept result = true → w'.store.catalog.HoldsNothingPrivate svc) := by
  have hc := hreach.rooted
  have hsees : y.sees w.store.catalog svc = false := by
    unfold sees
    rw [howner]
    simp only [hmode, hdenied, decide_false, Bool.or_false]
  constructor
  · intro result w' hrun
    exact batch_discreet hc hsvc (howner ▸ rfl) hsees hsource hids hrun
  · intro result w' hrun
    exact stream_discreet hc.furnished (Int.ne_of_gt (hsvc.range hc.furnished).1) hsees hsource
      (fun r hr hpublic => mem_publicOf.mpr ⟨hr, hpublic⟩) (fun r hr => (mem_publicOf.mp hr).2) hrun

/-- The service holds a private repository from the time when it was allowed to. -/
theorem passes_withhold_private_mixed :
    let y := Sample.confined Sample.mixed
    let c := Sample.secretive.store.catalog
    Reachable Repo.ListedBy c ∧ (∃ m, c.members.get? ⟨1, Sample.ownStored.id⟩ = some m) ∧ c.Private 1 ∧
      (∃ w', y.batch Sample.ownStored ⟨0⟩ Sample.secretive = (.ok (), w') ∧
        Redone (publicOf Sample.mixed) c w'.store.catalog ∧
        w'.store.catalog.HoldsNothingPrivate Sample.ownStored) ∧
      ∃ w', y.stream Sample.ownStored ⟨0⟩ Sample.secretive = (.ok (), w') ∧
        Redone (publicOf Sample.mixed) c w'.store.catalog ∧
        w'.store.catalog.HoldsNothingPrivate Sample.own := by
  intro y c
  obtain ⟨hreach, hsvc⟩ := Sample.secretive_reached
  have hbefore : (c.members.get? ⟨1, 2⟩).isSome = true ∧
      (c.repos.get? 1).map (fun row => (row.isLive, row.isPrivate)) = some (true, true) := by
    decide +kernel
  have hids : ∀ r, .ok r ∈ Sample.mixed → r.id = 0 := by
    intro r hr
    obtain rfl | rfl | rfl : r = Sample.secret "1" "alpha" ∨ r = Sample.ownEntry "2" "beta" ∨
        r = Sample.secret "2" "beta" := by simpa [Sample.mixed] using hr
    · rfl
    · rfl
    · rfl
  obtain ⟨hbatch, hstream⟩ := passes_withhold_private (y := y) hreach hsvc
    rfl (by decide) (by decide +kernel) rfl hids
  obtain ⟨m, hm⟩ := Option.isSome_iff_exists.mp hbefore.1
  obtain ⟨row, hrow, hsaid⟩ := Option.map_eq_some_iff.mp hbefore.2
  obtain ⟨hlive, hprivate⟩ := Prod.mk.inj hsaid
  refine ⟨hreach, ⟨m, hm⟩, ⟨row, hrow, hlive, hprivate⟩, ?_, ?_⟩
  · have hok : (y.batch Sample.ownStored ⟨0⟩ Sample.secretive).1.isOk = true := by decide +kernel
    cases hrun : y.batch Sample.ownStored ⟨0⟩ Sample.secretive with
    | mk result w' =>
        rw [hrun] at hok
        cases result with
        | error e => cases hok
        | ok u => exact ⟨w', rfl, (hbatch _ w' hrun).1, (hbatch _ w' hrun).2 rfl⟩
  · have hok : (y.stream Sample.ownStored ⟨0⟩ Sample.secretive).1.isOk = true := by decide +kernel
    cases hrun : y.stream Sample.ownStored ⟨0⟩ Sample.secretive with
    | mk result w' =>
        rw [hrun] at hok
        cases result with
        | error e => cases hok
        | ok u => exact ⟨w', rfl, (hstream _ w' hrun).1, (hstream _ w' hrun).2 rfl⟩

end Catalog

end RepoCatalog
