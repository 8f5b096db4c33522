import RepoCatalog.Proofs.AllOrNothing
import RepoCatalog.Proofs.Names

/-!
# Batch passes leave other services alone

What other services hold, they still hold after a batch pass, at the same addresses and for the same
users. The one exception is a repository that loses its name to another one of a smaller identity:
nobody holds it any more.

First come early insertions, which fill the catalog with listed repositories; then comes the batch.
-/
namespace RepoCatalog

open Step
open Time (Duration)

namespace Catalog

variable {c d e : Catalog} {svc : Service} {listed : List Repo}

/-- What early insertions of listed repositories for a service have made of the catalog `c`. -/
structure Filled (c : Catalog) (svc : Service) (listed : List Repo) (d : Catalog) : Prop where
  setting : SameSetting c d
  rows : ∀ j old, c.repos.get? j = some old → ∃ row, d.repos.get? j = some row ∧
    row.spec = old.spec ∧ (old.isLive = true → row.isLive = true) ∧
    (row.name = old.name ∨ ∃ r ∈ listed, r.spec = old.spec ∧ r.name = row.name)
  live : ∀ j row, d.repos.get? j = some row → row.isLive = true →
    c.repos.get? j = some row ∨ ∃ m, d.members.get? ⟨j, svc.id⟩ = some m
  kept : ∀ j, (∃ m, c.members.get? ⟨j, svc.id⟩ = some m) → ∃ m, d.members.get? ⟨j, svc.id⟩ = some m
  others : ∀ k : MemberKey, k.service ≠ svc.id → d.members.get? k = c.members.get? k

theorem Filled.refl (c : Catalog) (svc : Service) (listed : List Repo) : Filled c svc listed c :=
  ⟨.refl c, fun _ old h => ⟨old, h, rfl, id, .inl rfl⟩, fun _ _ h _ => .inl h, fun _ h => h,
    fun _ _ => rfl⟩

theorem Filled.trans (h : Filled c svc listed d) (h' : Filled d svc listed e) :
    Filled c svc listed e := by
  refine ⟨h.setting.trans h'.setting, fun j old hold => ?_, fun j row hrow hlive => ?_,
    fun j hm => h'.kept j (h.kept j hm), fun k hk => (h'.others k hk).trans (h.others k hk)⟩
  · obtain ⟨row, hrow, hspec, hlive, hname⟩ := h.rows j old hold
    obtain ⟨row', hrow', hspec', hlive', hname'⟩ := h'.rows j row hrow
    refine ⟨row', hrow', hspec'.trans hspec, fun hl => hlive' (hlive hl), ?_⟩
    rw [hspec] at hname'
    rcases hname' with hname' | hlisted
    · rw [hname']
      exact hname
    · exact .inr hlisted
  · rcases h'.live j row hrow hlive with hrow | hm
    · exact (h.live j row hrow hlive).imp_right (h'.kept j)
    · exact .inr hm

theorem Joined.filled {x x' r : Repo} (h : Joined c svc x x' d) (hid : x.id = 0)
    (hlive : x.deletedAt = none) (hr : r ∈ listed) (hspec : r.spec = x.spec)
    (hname : r.name = x.name) : Filled c svc listed d := by
  obtain ⟨⟨e, hsaved, -, hrepos⟩, claim, -, hmembers⟩ := id h
  have hrow : d.repos.get? x'.id = some x'.row := by
    rw [hrepos, hsaved.repos, if_pos rfl]
  have hmember : d.members.get? ⟨x'.id, svc.id⟩ = some ⟨claim.cloneUrl, svc.owner?⟩ := by
    rw [hmembers, Dict.get?_insert, if_pos rfl]
  have hsame : x'.row.spec = x.spec ∧ x'.row.name = x.name ∧ x'.row.isLive = true := by
    rw [hsaved.same]
    refine ⟨rfl, rfl, ?_⟩
    change x.deletedAt.isNone = true
    rw [hlive]
    rfl
  refine ⟨h.setting, fun j old hold => ?_, fun j row hj _ => ?_, fun j hm => ?_, fun k hk => ?_⟩
  · by_cases hj : j = x'.id
    · subst hj
      have hown : old.spec = x.spec := (hsaved.placed (.inl hid)).home old hold
      exact ⟨x'.row, hrow, hsame.1.trans hown.symm, fun _ => hsame.2.2,
        .inr ⟨r, hr, hspec.trans hown.symm, hname.trans hsame.2.1.symm⟩⟩
    · exact ⟨old, (h.row_of_ne hj).trans hold, rfl, id, .inl rfl⟩
  · by_cases hown : j = x'.id
    · exact .inr ⟨_, hown ▸ hmember⟩
    · exact .inl ((h.row_of_ne hown).symm.trans hj)
  · by_cases hown : j = x'.id
    · exact ⟨_, hown ▸ hmember⟩
    · rw [h.member_of_ne fun hk => hown (congrArg MemberKey.repo hk)]
      exact hm
  · exact h.member_of_ne fun hown => hk (congrArg MemberKey.service hown)

end Catalog

namespace Effect

/-- Early insertions of listed repositories have filled the catalog. -/
def Fills (svc : Service) (listed : List Repo) (w w' : World) : Prop :=
  w.store.catalog.Furnished → Catalog.Filled w.store.catalog svc listed w'.store.catalog

variable {svc : Service} {listed : List Repo}

instance : Asks (Fills svc listed) :=
  asks_onFurnished (S := fun c d => Catalog.Filled c svc listed d) (fun c => .refl c svc listed)
    (fun h h' => h.trans h') fun hs h => hs.of_sameSetting h.setting

end Effect

namespace Syncer

open Effect Catalog

variable {y : Syncer} {svc : Service} {listed : List Repo} {least : Duration} {w w' : World}

theorem fills_insertIfNew (y : Syncer) {r : Repo} (hr : r ∈ listed) :
    Within (Fills svc listed) (y.insertIfNew svc r) := by
  have hrefl : ∀ c, Filled c svc listed c := fun c => .refl c svc listed
  refine Within.bind (onFurnished_transaction (S := fun c d => Filled c svc listed d) hrefl
    (saved_reconcileNew y svc r) ?_) fun d w =>
      OnFurnished.of_store hrefl (still_publishSome y d w)
  intro v d v' hs hrun
  rcases reconcileNew_cases hs hrun with hsame | ⟨added, hjoined⟩
  · rw [hsame]
    exact .refl _ _ _
  · exact hjoined.filled rfl rfl hr rfl rfl

theorem mem_ofItems {items : List Item} {r : Repo} :
    r ∈ (Listing.ofItems items).repos ↔ .ok r ∈ items := by
  unfold Listing.ofItems
  rw [List.mem_filterMap]
  constructor
  · rintro ⟨item, hitem, hrepo⟩
    cases item with
    | ok repo =>
        cases hrepo
        exact hitem
    | error e => cases hrepo
  · exact fun hitem => ⟨_, hitem, rfl⟩

theorem fills_reading {items : List Item} (hsource : y.sourceOf svc = .ok items) (c : Catalog) :
    Within (Fills svc (y.visible c svc (Listing.ofItems items).repos)) (y.reading svc) := by
  cases howner : svc.owner? with
  | some user =>
      refine within_reading_quietly (.inr ?_)
      rw [howner]
      rfl
  | none =>
      refine asks_reading fun items' hitems r hr => fills_insertIfNew y ?_
      cases hsource.symm.trans hitems
      unfold visible sees
      rw [howner]
      exact mem_ofItems.mpr hr

end Syncer

namespace Catalog

variable {c d : Catalog} {svc : Service} {listed : List Repo}

/-- Another repository has the name of a row, as it is stored or as it is listed, and has a smaller
identity: a listed one, or a live one that the service does not hold. -/
def Outnamed (c : Catalog) (svc : Service) (listed : List Repo) (old : RepoRow) : Prop :=
  ∃ name, (name = old.name ∨ ∃ r ∈ listed, r.spec = old.spec ∧ r.name = name) ∧
    ((∃ x ∈ listed, x.spec < old.spec ∧ x.lowerName = Text.lowerCase name) ∨
      ∃ j row, c.repos.get? j = some row ∧ row.isLive = true ∧
        c.members.get? ⟨j, svc.id⟩ = none ∧ row.spec < old.spec ∧
        Text.lowerCase row.name = Text.lowerCase name)

theorem Filled.outnamed (h : Filled c svc listed d) {j : Int} {old row : RepoRow}
    (hold : c.repos.get? j = some old) (hrow : d.repos.get? j = some row)
    (hlost : Outnamed d svc listed row) : Outnamed c svc listed old := by
  obtain ⟨row', hrow', hspec, -, hnames⟩ := h.rows j old hold
  cases hrow.symm.trans hrow'
  obtain ⟨name, hname, hrival⟩ := hlost
  rw [hspec] at hname hrival
  refine ⟨name, ?_, hrival.imp_right ?_⟩
  · rcases hname with rfl | hlisted
    · exact hnames
    · exact .inr hlisted
  · rintro ⟨i, other, hother, hlive, hfree, hrest⟩
    have hsame := (h.live i other hother hlive).resolve_right fun ⟨m, hm⟩ => by
      rw [hfree] at hm
      cases hm
    refine ⟨i, other, hsame, hlive, ?_, hrest⟩
    rw [Option.eq_none_iff_forall_ne_some]
    intro m hm
    obtain ⟨m', hm'⟩ := h.kept i ⟨m, hm⟩
    rw [hfree] at hm'
    cases hm'

end Catalog

namespace Syncer

open Catalog

variable {c : Catalog} {svc : Service} {sourced : List Repo}

theorem exists_leader {r : Repo} (hr : first? sourced r.spec = some r) (h : ¬Leads sourced r) :
    ∃ x ∈ sourced, x.spec < r.spec ∧ x.lowerName = r.lowerName := by
  by_contra hno
  refine h ⟨hr, fun x hx hname hlt => hno ⟨x, (first?_some hx).1, hlt, hname⟩⟩

theorem exists_holder {r : Repo} (h : wins (stakeIn c svc.id sourced).conflicting r = false) :
    ∃ j row, c.repos.get? j = some row ∧ row.isLive = true ∧
      c.members.get? ⟨j, svc.id⟩ = none ∧ row.spec < r.spec ∧
      Text.lowerCase row.name = r.lowerName := by
  have hlost : ∃ z ∈ (stakeIn c svc.id sourced).conflicting, z.lowerName = r.lowerName ∧
      z.spec ≠ r.spec ∧ ¬r.spec < z.spec := by
    by_contra hno
    rw [← Bool.not_eq_true, wins_iff] at h
    refine h fun z hz hname hne => ?_
    by_contra hnot
    exact hno ⟨z, hz, hname, hne, hnot⟩
  obtain ⟨z, hz, hname, hne, hnot⟩ := hlost
  obtain ⟨hshows, hfree, -⟩ := mem_conflicting.mp hz
  obtain ⟨row, hrow, hlive, -⟩ := id hshows
  obtain ⟨hspec, hown⟩ := hshows.said hrow
  refine ⟨z.id, row, hrow, hlive, ?_, ?_, ?_⟩
  · rw [Option.eq_none_iff_forall_ne_some]
    exact fun m hm => isHeld_eq_false_iff.mp hfree ⟨m, hm⟩
  · rw [hspec]
    exact (Spec.lt_or_gt_of_ne hne).resolve_right hnot
  · rw [hown]
    exact hname

theorem outnamed_of_stale (hs : c.Furnished) (hlisted : ∀ r ∈ sourced, r.ListedBy svc) {x : Repo}
    {s : Int} {row : RepoRow} {m : Membership} (hrow : c.repos.get? x.id = some row)
    (hm : c.members.get? ⟨x.id, s⟩ = some m) (hne : s ≠ svc.id)
    (hx : x ∈ (compared c svc sourced).deleted) (hempty : x.claims.isEmpty = true) :
    Outnamed c svc sourced row := by
  obtain ⟨old, hold, hnone, ⟨-, rfl⟩ | ⟨hfirst, rfl⟩⟩ := (mem_compared_deleted hlisted).mp hx
  · -- What is no longer listed keeps the claim of the other service.
    obtain ⟨kind, hkind⟩ := hs.kindOf?_isSome hm
    have hclaim : old.claims.get? (Urn.format kind s) = some ⟨Urn.format kind s, m.cloneUrl⟩ :=
      (mem_stored.mp hold).1.get?_claims.mpr ⟨s, m, kind, hm, hkind, rfl, rfl⟩
    have hgone := Dict.isEmpty_iff.mp hempty (Urn.format kind s)
    rw [Dict.get?_erase, if_neg (urn_ne_of_service_ne hne), hclaim] at hgone
    cases hgone
  · obtain ⟨r, hr⟩ := Option.ne_none_iff_exists'.mp hfirst
    obtain ⟨hmem, hspec⟩ := first?_some hr
    obtain ⟨hsame, -⟩ := (mem_stored.mp hold).1.said hrow
    obtain ⟨z, hz, hlt, hname⟩ :=
      exists_leader (hspec ▸ hr) fun hleads => hnone r hleads hspec
    refine ⟨r.name, .inr ⟨r, hmem, hspec.trans hsame.symm, rfl⟩, .inl ⟨z, hz, ?_, hname⟩⟩
    rw [hsame, ← hspec]
    exact hlt

/-- What is dropped once the names are settled is beaten by an entry or loses to a live row. -/
theorem outnamed_of_dropped (hlisted : ∀ r ∈ sourced, r.ListedBy svc) {z : Repo} {row : RepoRow}
    (hz : Settlement.Droppable (stakeIn c svc.id sourced).conflicting
      ((compared c svc sourced).added ++ (compared c svc sourced).modified) z)
    (hrow : c.repos.get? z.id = some row) : Outnamed c svc sourced row := by
  rcases hz with ⟨a, ha, hrival, hlt⟩ | ⟨hz, hid, hloses⟩
  · obtain ⟨hconflicting, hname, -⟩ := mem_rivalsOf.mp hrival
    obtain ⟨r, hleads, hspec, hlower⟩ :=
      listed_of_compared hlisted (List.mem_append.mpr (List.mem_append.mp ha).symm)
    obtain ⟨hsame, hown⟩ := (mem_conflicting.mp hconflicting).1.said hrow
    refine ⟨row.name, .inl rfl, .inl ⟨r, hleads.mem, ?_, ?_⟩⟩
    · rw [hsame, ← hspec]
      exact hlt
    · rw [hown, ← hlower]
      exact hname.symm
  · rcases List.mem_append.mp hz with hz | hz
    · exact absurd (hlisted z ((mem_compared_added hlisted).mp hz).1.mem).id hid
    · obtain ⟨old, hold, r, hleads, hspec, -, rfl⟩ := (mem_compared_modified hlisted).mp hz
      rw [wins_updated _ hspec] at hloses
      obtain ⟨hsame, -⟩ := (mem_stored.mp hold).1.said hrow
      refine ⟨r.name, .inr ⟨r, hleads.mem, hspec.trans hsame.symm, rfl⟩, .inr ?_⟩
      rw [hsame, ← hspec]
      exact exists_holder hloses

theorem outnamed_of_orphan (hs : c.Furnished) (hlisted : ∀ r ∈ sourced, r.ListedBy svc) {j s : Int}
    {row : RepoRow} {m : Membership} (hrow : c.repos.get? j = some row)
    (hm : c.members.get? ⟨j, s⟩ = some m) (hne : s ≠ svc.id)
    (horphan : Orphans (planned c svc sourced) j) : Outnamed c svc sourced row := by
  obtain ⟨x, hx, rfl, hempty⟩ := horphan
  rcases planned_deleted_cases hx with hx | ⟨z, hdroppable, rfl⟩
  · exact outnamed_of_stale hs hlisted hrow hm hne hx hempty
  · exact outnamed_of_dropped hlisted hdroppable hrow

end Syncer

namespace Catalog

open Effect Syncer

variable {c e : Catalog} {svc : Service} {diff : Diff}

/-- A membership of another service stays as it is, and so does the repository live, unless it
becomes an orphan. -/
theorem Batched.others (h : Batched c svc diff e) {k : MemberKey} (hk : k.service ≠ svc.id)
    {old : RepoRow} (hold : c.repos.get? k.repo = some old) (hstays : ¬Orphans diff k.repo) :
    e.members.get? k = c.members.get? k ∧
      ∃ row, e.repos.get? k.repo = some row ∧ (old.isLive = true → row.isLive = true) := by
  by_cases hwritten : ∃ x ∈ diff.modified ++ diff.added, x.spec = old.spec
  · obtain ⟨x, hx, hspec⟩ := hwritten
    obtain ⟨w, hw⟩ := h.written x hx
    have hid : k.repo = w.id := Placed.ownSpec hw.landed k.repo old hold hspec.symm
    have hkey : k = ⟨w.id, k.service⟩ := by rw [← hid]
    refine ⟨?_, w.row, hid ▸ hw.row, fun _ => hw.landed.isLive⟩
    rw [hkey]
    exact hw.others k.service hk
  · have hother : ∀ x ∈ diff.modified ++ diff.added, x.spec ≠ old.spec :=
      fun x hx hspec => hwritten ⟨x, hx, hspec⟩
    obtain ⟨hrow, hmembers⟩ := h.standing k.repo old hold hother hstays
    refine ⟨(hmembers k.service).2 ?_, old, hrow, id⟩
    rintro ⟨x, hx, hid, hempty | hown⟩
    · exact hstays ⟨x, hx, hid, hempty⟩
    · exact hk hown

theorem Batched.no_member (h : Batched c svc diff e) {k : MemberKey} (hk : k.service ≠ svc.id)
    (hnone : c.members.get? k = none) : e.members.get? k = none := by
  rw [Option.eq_none_iff_forall_ne_some]
  intro m hm
  obtain ⟨row, hrow⟩ := repo_of_member hm
  rcases h.origin k.repo row hrow with ⟨x, hx, w, hw, hid⟩ | ⟨old, hold, -⟩
  · have hsame := hw.others k.service hk
    rw [hid, hm, hnone] at hsame
    cases hsame
  · by_cases horphan : Orphans diff k.repo
    · rw [(h.orphaned k.repo old hold horphan).2 k.service] at hm
      cases hm
    · rw [(h.others hk hold horphan).1, hnone] at hm
      cases hm

theorem mem_visible_of_judge {y : Syncer} {svc : Service} {c : Catalog} {listing : Listing}
    {sourced : List Repo} {failure : Option SyncError} {allowed : Bool} {x : Repo}
    (hjudge : judge svc listing = .ok (sourced, failure)) (hallowed : allowed = y.sees c svc)
    (hx : x ∈ if allowed then sourced else sourced.filter fun x => !x.isPrivate) :
    x ∈ y.visible c svc listing.repos := by
  have hmem : x ∈ y.visible c svc sourced := by
    unfold visible
    rw [← hallowed]
    exact hx
  obtain ⟨hsourced, hpublic⟩ := mem_visible.mp hmem
  exact mem_visible.mpr ⟨mem_of_judge hjudge x hsourced, hpublic⟩

/-- A batch pass that commits leaves what other services hold as it is, except for a repository
that loses its name to another one of a smaller identity: it becomes a tombstone. -/
theorem batch_spares_others {p : Service → Repo → Prop} {y : Syncer} {svc : Service}
    {least : Duration} {items : List Item} {w w' : World} {r : Except (Abort SyncError) Unit}
    (hreach : Reachable p w.store.catalog) (hsvc : w.store.catalog.Holds svc)
    (hsource : y.sourceOf svc = .ok items) (hlisted : ∀ x, .ok x ∈ items → x.ListedBy svc)
    (hrun : y.batch svc least w = (r, w')) (hcommitted : hasCommitted r = true) {k : MemberKey}
    (hk : k.service ≠ svc.id) :
    (w.store.catalog.members.get? k = none → w'.store.catalog.members.get? k = none) ∧
    ∀ m old, w.store.catalog.members.get? k = some m →
      w.store.catalog.repos.get? k.repo = some old → ∃ row,
        w'.store.catalog.repos.get? k.repo = some row ∧
        ((w'.store.catalog.members.get? k = some m ∧ (old.isLive = true → row.isLive = true)) ∨
          w'.store.catalog.members.get? k = none ∧ row.isLive = false ∧
            Outnamed w.store.catalog svc
              (y.visible w.store.catalog svc (Listing.ofItems items).repos) old) := by
  have hc := hreach.rooted
  obtain ⟨hno, -⟩ | ⟨-, d, hwritten, -, -⟩ := batch_cases hrun
  · cases hcommitted.symm.trans hno
  obtain ⟨items', sourced, failure, allowed, u, u', hitems, hjudge, -, hsees, hu, hbody,
    hcatalog⟩ := hwritten
  cases hsource.symm.trans hitems
  let listed := y.visible w.store.catalog svc (Listing.ofItems items).repos
  have hfilled : Filled w.store.catalog svc listed u.store.catalog := by
    rw [hu]
    exact fills_reading hsource w.store.catalog w hc.furnished
  have hrooted : u.store.catalog.Rooted := by
    rw [hu]
    exact hc.of_writes (wrote_reading y svc w).catalog
  have hsvc' := hsvc.of_sameSetting hfilled.setting
  let seen := if allowed then sourced else sourced.filter fun x => !x.isPrivate
  have hseen : ∀ x ∈ seen, x ∈ listed := by
    have hallowed := hsees (hu ▸ hrooted.furnished)
    rw [← hu, sees_of_sameSetting hfilled.setting] at hallowed
    exact fun x hx => mem_visible_of_judge hjudge hallowed hx
  have hproper : ∀ x ∈ seen, x.ListedBy svc := fun x hx =>
    hlisted x (mem_ofItems.mp (visible_subset (hseen x hx)))
  have hcarried := applyBatch_ok hrooted.furnished
    (Int.ne_of_gt (hsvc'.range hrooted.furnished).1) hbody
  have hbatched := batched hrooted hsvc' (feasible_plan hproper) hcarried
  rw [hcatalog, ← hfilled.others k hk]
  refine ⟨hbatched.no_member hk, fun m old hm hold => ?_⟩
  obtain ⟨mid, hmid, -, hlive, -⟩ := hfilled.rows k.repo old hold
  by_cases horphan : Orphans (planned u.store.catalog svc seen) k.repo
  · obtain ⟨⟨row, hrow, hdead, -⟩, hnone⟩ := hbatched.orphaned k.repo mid hmid horphan
    refine ⟨row, hrow, .inr ⟨hnone k.service, hdead, hfilled.outnamed hold hmid ?_⟩⟩
    obtain ⟨name, hname, hrival⟩ :=
      outnamed_of_orphan hrooted.furnished hproper hmid hm hk horphan
    refine ⟨name, hname.imp_right ?_, hrival.imp_left ?_⟩
    · rintro ⟨x, hx, hrest⟩
      exact ⟨x, hseen x hx, hrest⟩
    · rintro ⟨x, hx, hrest⟩
      exact ⟨x, hseen x hx, hrest⟩
  · obtain ⟨hsame, row, hrow, hstays⟩ := hbatched.others hk hmid horphan
    exact ⟨row, hrow, .inl ⟨hsame.trans hm, fun hl => hstays (hlive hl)⟩⟩

end Catalog

namespace Catalog

open Effect Syncer

/-- The host lists a repository under the name of a copy that has a larger identity. -/
theorem batch_spares_others_namesake :
    let items : List Item := [.ok (Sample.entry "1" "Alpha")]
    let y := Sample.syncer items
    let w := (y.perform (.sync Sample.mirror (Sample.copy "2" "alpha")) Sample.mirrored).2
    ∃ w' m old row, y.batch Sample.hub ⟨0⟩ w = (.ok (), w') ∧
      w.store.catalog.members.get? ⟨1, 2⟩ = some m ∧ w.store.catalog.repos.get? 1 = some old ∧
      w'.store.catalog.repos.get? 1 = some row ∧
      ((w'.store.catalog.members.get? ⟨1, 2⟩ = some m ∧ (old.isLive = true → row.isLive = true)) ∨
        w'.store.catalog.members.get? ⟨1, 2⟩ = none ∧ row.isLive = false ∧
          Outnamed w.store.catalog Sample.hub
            (y.visible w.store.catalog Sample.hub (Listing.ofItems items).repos) old) := by
  intro items y w
  have hstart : Reachable Repo.ListedBy Sample.mirrored.store.catalog :=
    .start rfl rfl Sample.furnished_mirrored
  have hreach : Reachable Repo.ListedBy w.store.catalog :=
    .pass y _ hstart (by exact ⟨rfl, rfl, "alpha", rfl⟩)
  have hsvc : w.store.catalog.Holds Sample.hub := by
    have hsync : Within Orderly (y.perform (.sync Sample.mirror (Sample.copy "2" "alpha"))) :=
      Within.bind (within_sync y Sample.mirror rfl) fun _ => Within.pure ()
    refine Holds.of_sameSetting ?_ ((hsync Sample.mirrored).tidy hstart.tidy).2
    exact ⟨(Sample.mirrored.store.catalog.services.get? 1).get rfl, rfl, rfl⟩
  have hlisted : ∀ x, .ok x ∈ items → x.ListedBy Sample.hub := by
    intro x hx
    cases List.mem_singleton.mp hx
    exact Sample.entry_listedBy "1" "Alpha"
  obtain ⟨m, hm⟩ : ∃ m, w.store.catalog.members.get? ⟨1, 2⟩ = some m :=
    Option.isSome_iff_exists.mp (by decide +kernel)
  obtain ⟨old, hold⟩ : ∃ old, w.store.catalog.repos.get? 1 = some old :=
    Option.isSome_iff_exists.mp (by decide +kernel)
  have hok : (y.batch Sample.hub ⟨0⟩ w).1.isOk = true := by decide +kernel
  cases hrun : y.batch Sample.hub ⟨0⟩ w with
  | mk r w' =>
      rw [hrun] at hok
      cases r with
      | error e => cases hok
      | ok u =>
          obtain ⟨row, hrow, hfate⟩ := (batch_spares_others hreach hsvc rfl hlisted hrun rfl
            (k := ⟨1, 2⟩) (by decide)).2 m old hm hold
          exact ⟨w', m, old, row, rfl, hm, hold, hrow, hfate⟩

end Catalog

end RepoCatalog
