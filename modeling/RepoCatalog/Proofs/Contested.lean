import RepoCatalog.Proofs.Namesakes
import RepoCatalog.Proofs.Streamed

/-!
# Names that several repositories want

Of the repositories that a stream lists under one name the last one that was brought up to date has
it in the end, whatever their identities are. So two orders of one listing come to the same if and
only if every name is listed last by the same repository in both.

As long as nothing strikes, each repository of a service of the site is brought up to date: whoever
has its name makes room for it.
-/
namespace RepoCatalog

open Step
open Time (Duration)

namespace Syncer

open Effect Catalog

variable {y : Syncer} {svc : Service} {r : Repo} {allowed : Bool} {items : List Item}
  {kept : List Repo} {failures : List SyncError} {least : Duration} {w w' : World}

theorem Taken.calmly {item : Item} (h : Taken y svc allowed w item kept failures w') :
    Calmly w w' := by
  have hcalmly : ∀ r, Within Calmly (y.sync svc r) :=
    fun r => admits_sync (p := fun _ => True) (calmly_publish y) trivial
  cases h with
  | refused e => exact id
  | passedOver hprivate hallowed => exact id
  | kept hvisible hrun => exact (hcalmly _).of_run hrun
  | failed hvisible hrun => exact (hcalmly _).of_run hrun

theorem Taken.wrote {item : Item} (h : Taken y svc allowed w item kept failures w') :
    Wrote (fun _ => True) w w' := by
  have hwrote : ∀ r, Within (Wrote fun _ => True) (y.sync svc r) :=
    fun r => admits_sync (p := fun _ => True) (wrote_publish y) trivial
  cases h with
  | refused e => exact Chained.refl w
  | passedOver hprivate hallowed => exact Chained.refl w
  | kept hvisible hrun => exact (hwrote _).of_run hrun
  | failed hvisible hrun => exact (hwrote _).of_run hrun

theorem Course.failures_eq_nil (h : Course y svc allowed w items kept failures w') (hw : w.Calm)
    (hc : w.store.catalog.Rooted) (hsvc : w.store.catalog.services.contains svc.id = true)
    (howner : svc.owner? = none) (hproper : ∀ r, .ok r ∈ items → r.Streamable svc)
    (hnone : ∀ e, .error e ∉ items) : failures = [] := by
  induction h with
  | done w => rfl
  | @next w v w' item items _ _ failures failures' htaken _ ih =>
      have hv : v.store.catalog.Rooted := hc.of_writes htaken.wrote.catalog
      have hrest := ih (htaken.calmly hw) hv
      have hfirst : failures = [] ∧ v.store.catalog.services.contains svc.id = true := by
        cases htaken with
        | refused e => exact absurd List.mem_cons_self (hnone e)
        | passedOver hprivate hallowed => exact ⟨rfl, hsvc⟩
        | @kept r d _ hvisible hrun =>
            have hr := hproper r List.mem_cons_self
            obtain ⟨url, hclaim⟩ := Repo.claim_of_solo hr.claims
            obtain ⟨j, out, hseated, -⟩ := sync_seated hc.furnished hr.live hr.spec hclaim hrun
            refine ⟨rfl, ?_⟩
            rw [hseated.setting.services]
            exact hsvc
        | @failed r e _ hvisible hrun =>
            have hr := hproper r List.mem_cons_self
            obtain ⟨url, hclaim⟩ := Repo.claim_of_solo hr.claims
            obtain ⟨d, u, hok, -⟩ :=
              sync_goes hw hc hsvc howner (Option.isSome_of_eq_some hclaim)
                (finds_of_lowerName _ hr.name) y
            cases hok.symm.trans hrun
      rw [hfirst.1, hrest hfirst.2 (fun r hr => hproper r (List.mem_cons_of_mem _ hr))
        fun e he => hnone e (List.mem_cons_of_mem _ he)]
      rfl

theorem Course.kept_eq (h : Course y svc allowed w items kept failures w')
    (hnone : failures = []) : kept = if allowed then (Listing.ofItems items).repos
      else (Listing.ofItems items).repos.filter fun r => !r.isPrivate := by
  induction h with
  | done w => cases allowed <;> rfl
  | @next w v w' item items kept kept' failures failures' htaken _ ih =>
      obtain ⟨hfirst, hrest⟩ := List.append_eq_nil_iff.mp hnone
      have hitem : kept = if allowed then (Listing.ofItems [item]).repos
          else (Listing.ofItems [item]).repos.filter fun r => !r.isPrivate := by
        cases htaken with
        | refused e => cases hfirst
        | @passedOver r hprivate hallowed =>
            rw [hallowed, if_neg Bool.false_ne_true]
            change [] = [r].filter fun r => !r.isPrivate
            rw [List.filter_cons_of_neg (by rw [hprivate]; decide), List.filter_nil]
        | @kept r d _ hvisible hrun =>
            change [r] = if allowed then [r] else [r].filter fun r => !r.isPrivate
            cases hallowed : allowed with
            | true => rfl
            | false =>
                have hpublic : r.isPrivate = false := by
                  rw [Bool.eq_false_iff]
                  intro hprivate
                  cases hallowed.symm.trans (hvisible hprivate)
                rw [if_neg Bool.false_ne_true, List.filter_cons_of_pos (by rw [hpublic]; rfl),
                  List.filter_nil]
        | failed hvisible hrun => cases hfirst
      rw [hitem, ih hrest, ofItems_cons_repos item items]
      split
      · rfl
      · rw [List.filter_append]

end Syncer

namespace Catalog

open Effect Syncer

variable {c d : Catalog} {svc : Service} {kept : List Repo}

/-- The service holds a live row of this identity under this name. -/
def Bears (c : Catalog) (svc : Service) (spec : Spec) (name : String) : Prop :=
  ∃ j row m, c.repos.get? j = some row ∧ row.isLive = true ∧
    c.members.get? ⟨j, svc.id⟩ = some m ∧ row.spec = spec ∧ row.name = name

theorem Serves.bears_iff (h : Serves c svc kept) {spec : Spec} {name : String} :
    c.Bears svc spec name ↔ ∃ x ∈ kept, x.spec = spec ∧ x.name = name := by
  constructor
  · rintro ⟨j, row, m, hrow, -, hm, rfl, rfl⟩
    obtain ⟨x, hx, hstands⟩ := h.only j m hm
    obtain ⟨row', hrow', -, hname, hspec⟩ := hstands.row
    cases hrow.symm.trans hrow'
    exact ⟨x, hx, hspec.symm, hname.symm⟩
  · rintro ⟨x, hx, rfl, rfl⟩
    obtain ⟨j, hstands, -⟩ := h.one x hx
    obtain ⟨row, hrow, hlive, hname, hspec⟩ := hstands.row
    obtain ⟨-, m, -, -, hm, -⟩ := hstands
    exact ⟨j, row, m, hrow, hlive, hm, hspec, hname⟩

/-- After a pass that nobody stopped, each name belongs to the last repository that was brought up
to date under it. -/
theorem stream_lasting {y : Syncer} {svc : Service} {least : Duration} {listed : List Repo}
    {w w' : World} {r : Except (Abort SyncError) Unit} (hc : w.store.catalog.Rooted)
    (hsvc : w.store.catalog.Holds svc) (hsource : y.sourceOf svc = .ok (listed.map .ok))
    (hproper : ∀ x ∈ listed, x.Streamable svc)
    (hapart : listed.Pairwise fun a b => a.spec ≠ b.spec)
    (hrun : y.stream svc least w = (r, w')) (hgoing : w'.isCancelled = false) :
    (w.faults ≠ [] ∧ ∃ context e, r = .error (.failed (.store context e))) ∨
      ∃ v v' kept failures, y.allowsPrivate svc w = (.ok (y.sees w.store.catalog svc), v) ∧
        v.store = w.store ∧
        Course y svc (y.sees w.store.catalog svc) v (listed.map .ok) kept failures v' ∧
        (∀ spec name, w'.store.catalog.Bears svc spec name ↔
          ∃ x ∈ Repo.lasting kept, x.spec = spec ∧ x.name = name) ∧
        Reported y svc least failures r := by
  have hrepos : (Listing.ofItems (listed.map .ok)).repos = listed := by
    rw [ofItems_repos]
  have hnone : ∀ e, .error e ∉ listed.map (.ok : Repo → Item) := by
    intro e he
    obtain ⟨x, -, hx⟩ := List.mem_map.mp he
    cases hx
  rcases stream_serves hc hsvc hsource (by rw [hrepos]; exact hproper) (by rw [hrepos]; exact hapart)
    (fun e he => absurd he (hnone e)) hrun hgoing with
    hfaulty | ⟨v, v', kept, failures, hallowed, hsame, hcourse, hserves, -, hreported⟩
  · exact .inl hfaulty
  · exact .inr ⟨v, v', kept, failures, hallowed, hsame, hcourse, fun spec name => hserves.bears_iff,
      hreported⟩

theorem stream_ok_lasting {y : Syncer} {svc : Service} {least : Duration} {listed : List Repo}
    {w w' : World} (hc : w.store.catalog.Rooted) (hsvc : w.store.catalog.Holds svc)
    (hsource : y.sourceOf svc = .ok (listed.map .ok)) (hproper : ∀ x ∈ listed, x.Streamable svc)
    (hapart : listed.Pairwise fun a b => a.spec ≠ b.spec)
    (hrun : y.stream svc least w = (.ok (), w')) (hgoing : w'.isCancelled = false) (spec : Spec)
    (name : String) : w'.store.catalog.Bears svc spec name ↔
      ∃ x ∈ Repo.lasting (y.visible w.store.catalog svc listed), x.spec = spec ∧ x.name = name := by
  rcases stream_lasting hc hsvc hsource hproper hapart hrun hgoing with
    ⟨-, context, e, hfailed⟩ | ⟨v, v', kept, failures, -, -, hcourse, hbears, hreported⟩
  · cases hfailed
  cases hreported with
  | well hnone =>
      have hkept : kept = y.visible w.store.catalog svc listed := by
        rw [hcourse.kept_eq hnone, ofItems_repos]
        rfl
      rw [← hkept]
      exact hbears spec name

/-- Two orders of one listing leave the same repositories under their names if and only if each name
is listed last by the same one in both. -/
theorem same_bearers_iff {y y' : Syncer} {listed listed' : List Repo} {c d d' : Catalog}
    (hperm : listed.Perm listed') (hapart : listed.Pairwise fun a b => a.spec ≠ b.spec)
    (hbears : ∀ spec name, d.Bears svc spec name ↔
      ∃ x ∈ Repo.lasting (y.visible c svc listed), x.spec = spec ∧ x.name = name)
    (hbears' : ∀ spec name, d'.Bears svc spec name ↔
      ∃ x ∈ Repo.lasting (y'.visible c svc listed'), x.spec = spec ∧ x.name = name) :
    (∀ spec name, d.Bears svc spec name ↔ d'.Bears svc spec name) ↔
      ∀ x, x ∈ Repo.lasting (y.visible c svc listed) ↔
        x ∈ Repo.lasting (y'.visible c svc listed') := by
  have hsame : ∀ a ∈ listed, ∀ b ∈ listed, a.spec = b.spec → a = b := by
    intro a ha b hb hspec
    by_contra hne
    have : Std.Symm fun a b : Repo => a.spec ≠ b.spec := ⟨fun _ _ h => Ne.symm h⟩
    exact hapart.forall ha hb hne hspec
  have hlisted : ∀ x ∈ Repo.lasting (y.visible c svc listed), x ∈ listed :=
    fun x hx => visible_subset (Repo.lasting_subset hx)
  have hlisted' : ∀ x ∈ Repo.lasting (y'.visible c svc listed'), x ∈ listed :=
    fun x hx => hperm.mem_iff.mpr (visible_subset (Repo.lasting_subset hx))
  constructor
  · intro hall x
    constructor
    · intro hx
      obtain ⟨x', hx', hspec, -⟩ :=
        (hbears' _ _).mp ((hall _ _).mp ((hbears x.spec x.name).mpr ⟨x, hx, rfl, rfl⟩))
      exact hsame x' (hlisted' x' hx') x (hlisted x hx) hspec ▸ hx'
    · intro hx
      obtain ⟨x', hx', hspec, -⟩ :=
        (hbears _ _).mp ((hall _ _).mpr ((hbears' x.spec x.name).mpr ⟨x, hx, rfl, rfl⟩))
      exact hsame x' (hlisted x' hx') x (hlisted' x hx) hspec ▸ hx'
  · intro hlast spec name
    rw [hbears, hbears']
    exact exists_congr fun x => and_congr_left fun _ => hlast x

end Catalog

namespace Sample

theorem entry_streamable (id : String) {name : String}
    (hname : Text.lowerCase name = Text.Ascii.lower name) : (entry id name).Streamable hub := by
  refine ⟨rfl, ⟨name, rfl⟩, ?_, hname⟩
  change ("github".isEmpty && "hub".isEmpty && id.isEmpty) = false
  rw [show "github".isEmpty = false from rfl, Bool.false_and, Bool.false_and]

/-- Two repositories of one name, the one of the smaller identity first. -/
def namesakes : List Repo :=
  [entry "1" "alpha", entry "2" "Alpha"]

theorem namesakes_streamable : ∀ x ∈ namesakes, x.Streamable hub := by
  intro x hx
  rcases List.mem_pair.mp hx with rfl | rfl
  · exact entry_streamable "1" (by decide)
  · exact entry_streamable "2" (by decide)

theorem namesakes_apart : namesakes.Pairwise fun a b => a.spec ≠ b.spec :=
  List.pairwise_pair.mpr (by decide)

end Sample

namespace Catalog

open Effect Syncer

variable {c d : Catalog} {svc : Service} {kept : List Repo}

/-- As long as all is calm, nothing but the end of time keeps a pass over a service of the site from
ending well. -/
theorem stream_listed_calm {y : Syncer} {least : Duration} {listed : List Repo} {w w' : World}
    {r : Except (Abort SyncError) Unit} (hw : w.Calm) (hc : w.store.catalog.Rooted)
    (hsvc : w.store.catalog.Holds svc) (howner : svc.owner? = none)
    (hsource : y.sourceOf svc = .ok (listed.map .ok)) (hproper : ∀ x ∈ listed, x.Streamable svc)
    (hapart : listed.Pairwise fun a b => a.spec ≠ b.spec)
    (hrun : y.stream svc least w = (r, w')) : r = .ok () ∨
      (∃ modified, y.now.add? (Resync.afterStream y.now svc.lastSyncAt least modified false) =
        none) ∧ r = .error (.defect .timeAfterEnd) := by
  have hcalmly : Within Calmly (y.stream svc least) :=
    admits_stream (fun _ => True) (calmly_publish y) (fun _ _ _ _ => trivial) fun _ _ =>
      outward_store _ _ _
  have hw' := hcalmly.of_run hrun hw
  rcases stream_lasting hc hsvc hsource hproper hapart hrun hw'.going with
    ⟨hfaults, -⟩ | ⟨v, v', kept, failures, hallowed, hsame, hcourse, -, hreported⟩
  · exact absurd hw.faults hfaults
  have hnone : failures = [] := by
    refine hcourse.failures_eq_nil ((asks_allowsPrivate (R := Calmly) y svc).of_run hallowed hw)
      ?_ ?_ howner ?_ ?_
    · rw [hsame]
      exact hc
    · rw [hsame]
      obtain ⟨row, hrow, -⟩ := hsvc
      rw [Table.contains_eq, hrow]
      rfl
    · intro x hx
      obtain ⟨x', hx', hsame⟩ := List.mem_map.mp hx
      cases hsame
      exact hproper x hx'
    · intro e he
      obtain ⟨x, -, hx⟩ := List.mem_map.mp he
      cases hx
  cases hreported with
  | well _ => exact .inl rfl
  | bundled hsome => exact absurd hnone hsome
  | late modified hlate =>
      rw [hnone] at hlate
      exact .inr ⟨⟨modified, hlate⟩, rfl⟩

/-- Who is listed last under a name has it in the end: what a stream brings up to date last under
each name is what its service holds under it. A service of the site brings up to date whatever it
lists, as long as all is calm; and two passes over one listing in different orders that end well
come to the same if and only if every name is listed last by the same repository in both. -/
theorem last_listed_bears {p : Service → Repo → Prop} {y : Syncer} {svc : Service}
    {least : Duration} {listed listed' : List Repo} (source : SourceFactory) {w : World}
    (hreach : Reachable p w.store.catalog) (hsvc : w.store.catalog.Holds svc)
    (hsource : y.sourceOf svc = .ok (listed.map .ok))
    (hsource' : source svc = .ok (listed'.map .ok)) (hperm : listed.Perm listed')
    (hproper : ∀ x ∈ listed, x.Streamable svc)
    (hapart : listed.Pairwise fun a b => a.spec ≠ b.spec) :
    let y' : Syncer := { y with sourceOf := source }
    let seen := y.visible w.store.catalog svc listed
    let seen' := y.visible w.store.catalog svc listed'
    (∀ r u, y.stream svc least w = (r, u) → u.isCancelled = false →
      (w.faults ≠ [] ∧ ∃ context e, r = .error (.failed (.store context e))) ∨
      ∃ v v' kept failures, y.allowsPrivate svc w = (.ok (y.sees w.store.catalog svc), v) ∧
        v.store = w.store ∧
        Course y svc (y.sees w.store.catalog svc) v (listed.map .ok) kept failures v' ∧
        (∀ spec name, u.store.catalog.Bears svc spec name ↔
          ∃ x ∈ Repo.lasting kept, x.spec = spec ∧ x.name = name) ∧
        Reported y svc least failures r) ∧
    (svc.owner? = none → w.Calm → ∀ r u, y.stream svc least w = (r, u) → r = .ok () ∨
      (∃ modified, y.now.add? (Resync.afterStream y.now svc.lastSyncAt least modified false) =
        none) ∧ r = .error (.defect .timeAfterEnd)) ∧
    ∀ u u', y.stream svc least w = (.ok (), u) → y'.stream svc least w = (.ok (), u') →
      u.isCancelled = false → u'.isCancelled = false →
      (∀ spec name, u.store.catalog.Bears svc spec name ↔
        ∃ x ∈ Repo.lasting seen, x.spec = spec ∧ x.name = name) ∧
      ((∀ spec name, u.store.catalog.Bears svc spec name ↔ u'.store.catalog.Bears svc spec name) ↔
        ∀ x, x ∈ Repo.lasting seen ↔ x ∈ Repo.lasting seen') := by
  intro y' seen seen'
  have hc := hreach.rooted
  refine ⟨fun r u hrun hgoing => stream_lasting hc hsvc hsource hproper hapart hrun hgoing,
    fun howner hw r u hrun => stream_listed_calm hw hc hsvc howner hsource hproper hapart hrun, ?_⟩
  intro u u' hrun hrun' hgoing hgoing'
  have hproper' : ∀ x ∈ listed', x.Streamable svc := fun x hx => hproper x (hperm.mem_iff.mpr hx)
  have hapart' := (hperm.pairwise_iff fun h => Ne.symm h).mp hapart
  have hbears := stream_ok_lasting hc hsvc hsource hproper hapart hrun hgoing
  have hbears' := stream_ok_lasting hc hsvc (y := y') hsource' hproper' hapart' hrun' hgoing'
  exact ⟨hbears, same_bearers_iff hperm hapart hbears hbears'⟩

/-- Two repositories of one name are listed in the order of their identities, around a third one
that may come first or last. -/
theorem last_listed_bears_namesakes :
    let listed := Sample.namesakes ++ [Sample.entry "3" "beta"]
    let listed' := Sample.entry "3" "beta" :: Sample.namesakes
    let y := Sample.syncer (listed.map .ok)
    let y' : Syncer := { y with sourceOf := fun _ => .ok (listed'.map .ok) }
    ∃ u u', y.stream Sample.hub ⟨0⟩ Sample.base = (.ok (), u) ∧
      y'.stream Sample.hub ⟨0⟩ Sample.base = (.ok (), u') ∧
      (∀ spec name, u.store.catalog.Bears Sample.hub spec name ↔
        u'.store.catalog.Bears Sample.hub spec name) ∧
      u.store.catalog.Bears Sample.hub (Sample.entry "2" "Alpha").spec "Alpha" := by
  intro listed listed' y y'
  have hperm : listed.Perm listed' := List.perm_append_comm
  have hproper : ∀ x ∈ listed, x.Streamable Sample.hub := by
    intro x hx
    rcases List.mem_append.mp hx with hx | hx
    · exact Sample.namesakes_streamable x hx
    · cases List.mem_singleton.mp hx
      exact Sample.entry_streamable "3" (by decide)
  have hapart : listed.Pairwise fun a b => a.spec ≠ b.spec := by decide
  obtain ⟨-, -, hends⟩ := last_listed_bears (y := y) (fun _ => .ok (listed'.map .ok))
    (.start rfl rfl Sample.furnished_base : Reachable Repo.ListedBy Sample.base.store.catalog)
    Sample.holds_base rfl rfl hperm hproper hapart
  have hok : (y.stream Sample.hub ⟨0⟩ Sample.base).1.isOk = true ∧
      (y.stream Sample.hub ⟨0⟩ Sample.base).2.isCancelled = false := by decide +kernel
  have hok' : (y'.stream Sample.hub ⟨0⟩ Sample.base).1.isOk = true ∧
      (y'.stream Sample.hub ⟨0⟩ Sample.base).2.isCancelled = false := by decide +kernel
  have hlast : Repo.lasting (y.visible Sample.base.store.catalog Sample.hub listed) =
      [Sample.entry "2" "Alpha", Sample.entry "3" "beta"] := by decide
  have hlast' : Repo.lasting (y.visible Sample.base.store.catalog Sample.hub listed') =
      [Sample.entry "3" "beta", Sample.entry "2" "Alpha"] := by decide
  obtain ⟨⟨⟩, hrun⟩ := exists_of_isOk hok.1
  obtain ⟨⟨⟩, hrun'⟩ := exists_of_isOk hok'.1
  obtain ⟨hbears, hsame⟩ := hends _ _ hrun hrun' hok.2 hok'.2
  refine ⟨_, _, hrun, hrun', hsame.mpr fun x => ?_, (hbears _ _).mpr ⟨_, ?_, rfl, rfl⟩⟩
  · rw [hlast, hlast', List.mem_pair, List.mem_pair]
    exact or_comm
  · rw [hlast]
    exact List.mem_cons_self

/-- Listed in the order of their identities, of two repositories of one name the one of the larger
identity gets it; listed the other way round, the one of the smaller. -/
theorem bearer_depends_on_order :
    let y := Sample.syncer (Sample.namesakes.map .ok)
    let y' : Syncer := { y with sourceOf := fun _ => .ok (Sample.namesakes.reverse.map .ok) }
    let small := Sample.entry "1" "alpha"
    let large := Sample.entry "2" "Alpha"
    Reachable Repo.ListedBy Sample.base.store.catalog ∧
      Sample.base.store.catalog.Holds Sample.hub ∧
      Sample.namesakes.Perm Sample.namesakes.reverse ∧
      (∀ x ∈ Sample.namesakes, x.Streamable Sample.hub) ∧
      (Sample.namesakes.Pairwise fun a b => a.spec ≠ b.spec) ∧
      small.spec < large.spec ∧ small.lowerName = large.lowerName ∧
      ∃ u u', y.stream Sample.hub ⟨0⟩ Sample.base = (.ok (), u) ∧
        y'.stream Sample.hub ⟨0⟩ Sample.base = (.ok (), u') ∧
        (∀ spec name, u.store.catalog.Bears Sample.hub spec name ↔
          spec = large.spec ∧ name = large.name) ∧
        ∀ spec name, u'.store.catalog.Bears Sample.hub spec name ↔
          spec = small.spec ∧ name = small.name := by
  intro y y' small large
  have hstart : Reachable Repo.ListedBy Sample.base.store.catalog :=
    .start rfl rfl Sample.furnished_base
  have hperm : Sample.namesakes.Perm Sample.namesakes.reverse := (List.reverse_perm _).symm
  have hproper' : ∀ x ∈ Sample.namesakes.reverse, x.Streamable Sample.hub :=
    fun x hx => Sample.namesakes_streamable x (hperm.mem_iff.mpr hx)
  have hapart' : Sample.namesakes.reverse.Pairwise fun a b => a.spec ≠ b.spec := by
    decide
  have hok : (y.stream Sample.hub ⟨0⟩ Sample.base).1.isOk = true ∧
      (y.stream Sample.hub ⟨0⟩ Sample.base).2.isCancelled = false := by decide +kernel
  have hok' : (y'.stream Sample.hub ⟨0⟩ Sample.base).1.isOk = true ∧
      (y'.stream Sample.hub ⟨0⟩ Sample.base).2.isCancelled = false := by decide +kernel
  have hlast : Repo.lasting (y.visible Sample.base.store.catalog Sample.hub Sample.namesakes) =
      [large] := by decide
  have hlast' : Repo.lasting
      (y'.visible Sample.base.store.catalog Sample.hub Sample.namesakes.reverse) =
      [small] := by decide
  refine ⟨hstart, Sample.holds_base, hperm, Sample.namesakes_streamable, Sample.namesakes_apart,
    by decide, by decide, ?_⟩
  obtain ⟨⟨⟩, hrun⟩ := exists_of_isOk hok.1
  obtain ⟨⟨⟩, hrun'⟩ := exists_of_isOk hok'.1
  have hone : ∀ (x : Repo) (spec : Spec) (name : String),
      (∃ z ∈ [x], z.spec = spec ∧ z.name = name) ↔ spec = x.spec ∧ name = x.name := by
    intro x spec name
    constructor
    · rintro ⟨z, hz, rfl, rfl⟩
      cases List.mem_singleton.mp hz
      exact ⟨rfl, rfl⟩
    · rintro ⟨rfl, rfl⟩
      exact ⟨x, List.mem_singleton_self x, rfl, rfl⟩
  refine ⟨_, _, hrun, hrun', fun spec name => ?_, fun spec name => ?_⟩
  · rw [stream_ok_lasting hstart.rooted Sample.holds_base rfl Sample.namesakes_streamable
      Sample.namesakes_apart hrun hok.2, hlast]
    exact hone large spec name
  · rw [stream_ok_lasting hstart.rooted Sample.holds_base rfl hproper' hapart' hrun' hok'.2, hlast']
    exact hone small spec name

end Catalog

end RepoCatalog
