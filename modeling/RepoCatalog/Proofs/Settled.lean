import RepoCatalog.Proofs.Early
import RepoCatalog.Proofs.Followed
import RepoCatalog.Proofs.Overwritten
import RepoCatalog.Proofs.Standing
import RepoCatalog.Proofs.Truth

/-!
# What is settled stays settled

Once a batch has been written, the same listing leaves nothing to be done: what is stored stands for
its entry, and an entry for which nothing is stored lost its name to a holder that has it still. So
a second pass rests, unless it inserts early what the batch has to delete again.
-/
namespace RepoCatalog

open Step
open Time (Duration Instant)

namespace Syncer

open Effect Catalog

variable {c e : Catalog} {svc : Service} {sourced : List Repo}

theorem planned_congr {svc' : Service} (hid : svc'.id = svc.id) (hkind : svc'.kind = svc.kind)
    (c : Catalog) (sourced : List Repo) : planned c svc' sourced = planned c svc sourced := by
  unfold planned plan Service.urn
  rw [hid, hkind]

section

variable (hlisted : ∀ r ∈ sourced, r.ListedBy svc)
include hlisted

/-- If all that is stored repeats its entry, and every other entry loses, a batch does nothing. -/
theorem planned_quiet (hnames : ∀ r ∈ sourced, Text.IsAscii r.name)
    (hrepeats : ∀ old ∈ (stakeIn c svc.id sourced).stored,
      ∃ r, Leads sourced r ∧ r.spec = old.spec ∧ isNews old r = false)
    (hloses : ∀ r, Leads sourced r →
      (∀ old ∈ (stakeIn c svc.id sourced).stored, old.spec ≠ r.spec) →
        wins (stakeIn c svc.id sourced).conflicting r = false) :
    (planned c svc sourced).hasChanges = false := by
  obtain ⟨dropped, hres⟩ := planned_resolved c svc sourced
  have hmodified : (compared c svc sourced).modified = [] := by
    refine List.eq_nil_iff_forall_not_mem.mpr fun x hx => ?_
    obtain ⟨old, hold, r, hleads, hspec, hnews, -⟩ := (mem_compared_modified hlisted).mp hx
    obtain ⟨r', hleads', hspec', hsame⟩ := hrepeats old hold
    rw [hleads'.eq_of_spec hleads (hspec'.trans hspec.symm), hnews] at hsame
    cases hsame
  have hdeleted : (compared c svc sourced).deleted = [] := by
    refine List.eq_nil_iff_forall_not_mem.mpr fun x hx => ?_
    obtain ⟨old, hold, hnone, -⟩ := (mem_compared_deleted hlisted).mp hx
    obtain ⟨r, hleads, hspec, -⟩ := hrepeats old hold
    exact hnone r hleads hspec
  have hadded : ∀ x ∈ (compared c svc sourced).added,
      x.id = 0 ∧ wins (stakeIn c svc.id sourced).conflicting x = false := by
    intro x hx
    obtain ⟨hleads, hfresh⟩ := (mem_compared_added hlisted).mp hx
    exact ⟨(hlisted x hleads.mem).id, hloses x hleads hfresh⟩
  -- A loser beats no holder of its name, since the one that keeps it is the only one.
  have hdropped : dropped = [] := by
    refine List.eq_nil_iff_forall_not_mem.mpr fun x hx => ?_
    obtain ⟨z, hz, -⟩ := hres.origin x hx
    rw [hmodified, List.append_nil] at hz
    rcases hz with ⟨r, hr, hrival, hlt⟩ | ⟨hz, hne, -⟩
    · obtain ⟨hz, hzname, -⟩ := mem_rivalsOf.mp hrival
      have hlost := (hadded r hr).2
      rw [← Bool.not_eq_true, wins_iff] at hlost
      refine hlost fun h hh hname _ => ?_
      rw [eq_of_conflicting hnames hh hz (hname.trans hzname.symm)]
      exact hlt
    · exact hne (hadded z hz).1
  refine Diff.hasChanges_eq_false_iff.mpr ⟨?_, ?_, ?_⟩
  · rw [hres.added]
    exact List.filter_eq_nil_iff.mpr fun x hx => Bool.eq_false_iff.mp (hadded x hx).2
  · rw [hres.modified, hmodified]
    rfl
  · rw [hres.deleted, hdeleted, hdropped]
    rfl

variable (hc : c.Rooted) (h : Batched c svc (planned c svc sourced) e)
include hc h

theorem conflicting_of_unbeaten {k : Repo} (hk : k ∈ (stakeIn c svc.id sourced).conflicting)
    (hunbeaten : ∀ r, Leads sourced r → r.lowerName = k.lowerName → ¬r.spec < k.spec) :
    ∃ k' ∈ (stakeIn e svc.id sourced).conflicting,
      k'.lowerName = k.lowerName ∧ k'.spec = k.spec := by
  obtain ⟨hshows, hunheld, hunlisted, hnamed⟩ := mem_conflicting.mp hk
  obtain ⟨row, hrow, hlive, hview⟩ := hshows
  have hspec : k.spec = row.spec := by
    rw [hview]
    rfl
  have hunwritten : ∀ x ∈ (planned c svc sourced).modified ++ (planned c svc sourced).added,
      x.spec ≠ row.spec := by
    intro x hx hxspec
    obtain ⟨r, hleads, hwritten⟩ := exists_leads_of_written hlisted hx
    exact hunlisted r hleads.mem (hwritten.trans (hxspec.trans hspec.symm))
  have hstays : ¬Orphans (planned c svc sourced) k.id := by
    intro horphan
    obtain ⟨-, r, hleads, hname, hlt⟩ := beaten_of_orphans hlisted hc hrow hlive
      (fun x hx => hspec ▸ hunlisted x hx) (fun hheld => (by cases hunheld.symm.trans hheld)) horphan
    rw [← hview] at hname
    exact hunbeaten r hleads hname (hspec ▸ hlt)
  obtain ⟨hrow', hmembers⟩ := h.standing k.id row hrow hunwritten hstays
  have hfree : e.isHeld svc.id k.id = false := by
    unfold isHeld at hunheld ⊢
    by_cases hgoes : Goes svc (planned c svc sourced) ⟨k.id, svc.id⟩
    · rw [(hmembers svc.id).1 hgoes]
      rfl
    · rwa [(hmembers svc.id).2 hgoes]
  refine ⟨e.view (k.id, row), mem_conflicting.mpr ⟨⟨row, hrow', hlive, rfl⟩, hfree, ?_, ?_⟩, ?_, ?_⟩
  · intro x hx hxspec
    exact hunlisted x hx (hxspec.trans hspec.symm)
  · rw [hview] at hnamed
    exact hnamed
  · rw [hview]
    rfl
  · exact hspec.symm

/-- An entry that leads its name and for which nothing is stored once a batch has been written lost
its name, and loses it again. -/
theorem loses_again (hsvc : c.Holds svc) {r : Repo} (hleads : Leads sourced r)
    (hfresh : ∀ old ∈ (stakeIn e svc.id sourced).stored, old.spec ≠ r.spec) :
    wins (stakeIn e svc.id sourced).conflicting r = false := by
  obtain ⟨url, hface⟩ := (hlisted r hleads.mem).faceFor
  have hlost : wins (stakeIn c svc.id sourced).conflicting r = false := by
    rw [← Bool.not_eq_true]
    intro hwins
    obtain ⟨j, row, m, hrow, hlive, -, hsame⟩ :=
      offers_of_leader hlisted hsvc h hleads hwins hface
    have hspec : r.spec = row.spec := congrArg Face.spec hsame
    exact hfresh (e.view (j, row))
      (mem_stored.mpr ⟨⟨row, hrow, hlive, rfl⟩, .inr ⟨r, hleads.mem, hspec⟩⟩) hspec.symm
  rw [← Bool.not_eq_true, wins_iff] at hlost ⊢
  intro hwins
  refine hlost fun k hk hname hne => ?_
  by_contra hnot
  obtain ⟨k', hk', hname', hspec'⟩ := conflicting_of_unbeaten hlisted hc h hk fun x hx hsame hlt => by
    rw [hx.eq_of_name hleads (hsame.trans hname)] at hlt
    exact hnot hlt
  exact hnot (hspec' ▸ hwins k' hk' (hname'.trans hname) (hspec' ▸ hne))

/-- A batch that has been written leaves nothing to be done for the same listing. -/
theorem planned_settled (hnames : ∀ r ∈ sourced, Text.IsAscii r.name) (hsvc : c.Holds svc)
    (hkind : e.kindOf? svc.id = some svc.kind) : (planned e svc sourced).hasChanges = false := by
  refine planned_quiet hlisted hnames (fun old hold => ?_) fun r hleads hfresh =>
    loses_again hlisted hc h hsvc hleads hfresh
  obtain ⟨⟨row, hrow, hlive, hview⟩, hstake⟩ := mem_stored.mp hold
  rw [hview] at hstake ⊢
  obtain ⟨r, hleads, hspec, hstands⟩ := stands_of_stake hlisted hsvc hc h hrow hlive hstake
  exact ⟨r, hleads, hspec, hstands.not_news hkind (hlisted r hleads.mem) hrow⟩

/-- What is inserted early into a settled catalog has an identity that counts with another name, and
that name is taken: the batch is to delete it again. -/
theorem stirs_of_heralded (hnames : ∀ r ∈ sourced, Text.IsAscii r.name) (hsvc : c.Holds svc)
    {r : Repo} (hr : r ∈ sourced) (hwelcome : e.Welcomes r) {u : Catalog} (hu : u.Rooted)
    (hkept : ∀ k row, e.repos.get? k = some row → row.isLive = true →
      u.repos.get? k = some row) {j : Int} {row : RepoRow} (hrow : u.repos.get? j = some row)
    (hlive : row.isLive = true) (hspec : row.spec = r.spec) :
    (planned u svc sourced).hasChanges = true := by
  rw [← Bool.not_eq_false]
  intro hquiet
  obtain ⟨hadded, hmodified, hdeleted⟩ := Diff.hasChanges_eq_false_iff.mp hquiet
  obtain ⟨x, hleads, hsame, hnews⟩ := exists_repeated hlisted hu hrow
    (mem_stored.mpr ⟨⟨row, hrow, hlive, rfl⟩, .inr ⟨r, hr, hspec.symm⟩⟩)
    (by
      rw [hmodified, hadded]
      exact fun x hx => absurd hx List.not_mem_nil)
    (by
      rintro ⟨x, hx, -⟩
      rw [hdeleted] at hx
      exact absurd hx List.not_mem_nil)
  have hkey : row.nameKey = x.lowerName :=
    nameKey_of_name (hnames x hleads.mem) (repeated hnews).name
  have hfresh : ∀ old ∈ (stakeIn e svc.id sourced).stored, old.spec ≠ x.spec := by
    rintro old hold holdspec
    obtain ⟨row', hrow', hlive', hview⟩ := (mem_stored.mp hold).1
    rw [hview] at holdspec
    cases (hwelcome.new _ row' hrow' hlive').symm.trans
      (meets_iff.mpr (.inr (holdspec.trans (hsame.trans hspec))))
  have hlost := loses_again hlisted hc h hsvc hleads hfresh
  rw [← Bool.not_eq_true, wins_iff] at hlost
  refine hlost fun k hk hname _ => ?_
  -- Whoever has the name is still there beside what was inserted under it.
  exfalso
  obtain ⟨⟨held, hheld, hheldlive, hview⟩, -, hunlisted, -⟩ := mem_conflicting.mp hk
  have hheldkey : held.nameKey = x.lowerName := by
    rw [← hname, lowerName_of_conflicting hnames hk, hview]
    rfl
  have hid := nameKey_inj (hkept _ held hheld hheldlive) hrow hheldlive hlive
    (hheldkey.trans hkey.symm)
  have hsamerow := hkept _ held hheld hheldlive
  rw [hid, hrow] at hsamerow
  cases hsamerow
  refine hunlisted r hr ?_
  rw [hview]
  exact hspec.symm

end

section

variable {y z : Syncer} {least : Duration} {last : Instant} {w w' v v' : World}

/-- What a batch pass over a listing has left: from a catalog `c` it has come to `e`, where the visit
is on record. -/
structure Settled (svc : Service) (sourced : List Repo) (last : Instant) (c e : Catalog) :
    Prop where
  rooted : c.Rooted
  holds : c.Holds svc
  batched : Batched c svc (planned c svc sourced) e
  tidy : e.Tidy
  kind : e.kindOf? svc.id = some svc.kind
  visited : ∃ row, e.services.get? svc.id = some row ∧ row.lastSyncAt = some last ∧
    row.namespaceUserId = svc.namespaceUserId

theorem applied_of_batch (hs : (y.reading svc w).2.store.catalog.Furnished)
    (howner : svc.owner? = none) (hsource : y.sourceOf svc = .ok (sourced.map .ok))
    (h : y.batch svc least w = (.ok (), w')) :
    ∃ d u u', u.store.catalog = (y.reading svc w).2.store.catalog ∧
      y.applyBatch svc sourced least u = (.ok d, u') ∧ w'.store.catalog = u'.store.catalog ∧
      w'.published = if y.audience = .listening ∧ !w'.isCancelled
        then (y.reading svc w).2.published ++ [d] else (y.reading svc w).2.published := by
  rcases batch_cases h with ⟨hnot, -⟩ | ⟨-, d, hdone⟩
  · cases hnot
  obtain ⟨items, listed, failure, allowed, u, u', hitems, hjudge, hfailure, hsees, hu, hrun,
    hcatalog⟩ := hdone.written
  cases hsource.symm.trans hitems
  cases concluded_eq_ok hfailure
  obtain rfl : listed = sourced := by
    rw [judge_none hjudge, ofItems_repos]
  obtain rfl : allowed = true := by
    rw [hsees hs, sees, howner]
  exact ⟨d, u, u', hu, hrun, hcatalog, hdone.published⟩

theorem settled_of_batch (hc : w.store.catalog.Tidy) (hsvc : w.store.catalog.Holds svc)
    (howner : svc.owner? = none) (hsource : y.sourceOf svc = .ok (sourced.map .ok))
    (hlisted : ∀ r ∈ sourced, r.ListedBy svc) (h : y.batch svc least w = (.ok (), w')) :
    Settled svc sourced y.now (y.reading svc w).2.store.catalog w'.store.catalog := by
  obtain ⟨hread, hsetting⟩ := (within_reading y svc w).tidy hc
  have hid : svc.id ≠ 0 := Int.ne_of_gt (hsvc.range hc.furnished).1
  obtain ⟨d, u, u', hu, hrun, hcatalog, -⟩ := applied_of_batch hread.furnished howner hsource h
  have hsvc' := hsvc.of_sameSetting hsetting
  rw [← hu] at hread hsvc'
  have hbatched := batched hread.toRooted hsvc' (feasible_plan hlisted)
    (applyBatch_ok hread.furnished hid hrun)
  obtain ⟨x, hvisit⟩ := recordVisit_of_applyBatch hrun
  have ⟨loaded, _, hload⟩ := hsvc'
  rw [hcatalog, ← hu]
  refine ⟨hread.toRooted, hsvc', hbatched, hread.batched hsvc' (feasible_plan hlisted) hbatched,
    ?_, ?_⟩
  · rw [applyBatch_kinds hread.furnished hsvc' hrun]
    exact hsvc'.kindOf?
  · obtain ⟨row, hrow, hover⟩ := recordVisit_overwrites hload hid hvisit
    refine ⟨row, hrow, hover.visited, ?_⟩
    have hcolumn := congrArg ServiceRow.namespaceUserId hover.columns
    change row.namespaceUserId = loaded.namespaceUserId at hcolumn
    unfold ServiceRow.toService? at hload
    obtain ⟨kind, -, hload⟩ := Option.map_eq_some_iff.mp hload
    rw [hcolumn, ← hload]

theorem Settled.exists_again (h : Settled svc sourced last c e) :
    ∃ again, e.Holds again ∧ again.id = svc.id := by
  obtain ⟨row, hrow, -⟩ := h.visited
  have hkind := h.kind
  unfold Catalog.kindOf? at hkind
  rw [hrow] at hkind
  obtain ⟨again, hload⟩ : ∃ again, row.toService? svc.id = some again :=
    ⟨_, congrArg (Option.map _) hkind⟩
  exact ⟨again, holds_of_row hrow hload⟩

theorem Settled.again (h : Settled svc sourced last c e) {again : Service} (hagain : e.Holds again)
    (hid : again.id = svc.id) :
    again.kind = svc.kind ∧ again.owner? = svc.owner? ∧ again.lastSyncAt = some last := by
  obtain ⟨row, hrow, hlast, huser⟩ := h.visited
  have hkind := hagain.kindOf?.symm.trans (hid ▸ h.kind)
  obtain ⟨row', hrow', hload⟩ := hagain
  rw [hid, hrow] at hrow'
  cases hrow'
  unfold ServiceRow.toService? at hload
  obtain ⟨kind, -, hload⟩ := Option.map_eq_some_iff.mp hload
  refine ⟨Option.some_inj.mp hkind, ?_, ?_⟩
  · rw [← hload]
    exact congrArg (Option.filter (0 < ·)) huser
  · rw [← hload]
    exact hlast

theorem Settled.urn_again (h : Settled svc sourced last c e) {again : Service}
    (hagain : e.Holds again) (hid : again.id = svc.id) : again.urn = svc.urn := by
  unfold Service.urn
  rw [(h.again hagain hid).1, hid]

/-- What a pass leaves that had nothing to do: rows and memberships are as they were, its audience
was told of no change, and the service is due again after the interval of a quiet one. -/
structure Rests (z : Syncer) (svc : Service) (last : Instant) (least : Duration) (v v' : World) :
    Prop where
  rows : SameRows v.store.catalog v'.store.catalog
  told : z.audience = .listening → ∃ d, d.added = [] ∧ d.modified = [] ∧ d.deleted = [] ∧
    v'.published = v.published ++ [d]
  untold : z.audience ≠ .listening → v'.published = v.published
  due : ∃ row, v'.store.catalog.services.get? svc.id = some row ∧ row.lastSyncAt = some z.now ∧
    row.nextSyncAt = z.now.add? (Resync.backOff z.now last least)

/-- What a pass leaves that has changed something: its audience was told of it last, and the service
is due again after the minimum interval. -/
structure Stirs (z : Syncer) (svc : Service) (least : Duration) (v' : World) : Prop where
  told : z.audience = .listening → ∃ ds d, d.hasChanges = true ∧ v'.published = ds ++ [d]
  due : ∃ row, v'.store.catalog.services.get? svc.id = some row ∧ row.lastSyncAt = some z.now ∧
    row.nextSyncAt = z.now.add? least

theorem calmly_batch (y : Syncer) (svc : Service) (least : Duration) :
    Within Calmly (y.batch svc least) :=
  admits_batch (fun _ => True) (calmly_publish y) (fun _ _ _ _ => trivial) fun _ _ =>
    outward_store _ _ _

theorem told_of_batch (hw : v.Calm) (hc : v.store.catalog.Tidy) (hsvc : v.store.catalog.Holds svc)
    (howner : svc.owner? = none) (hlast : svc.lastSyncAt = some last)
    (hsource : z.sourceOf svc = .ok (sourced.map .ok)) (h : z.batch svc least v = (.ok (), v')) :
    let u := (z.reading svc v).2
    let changed := (planned u.store.catalog svc sourced).hasChanges
    (changed = false → SameRows u.store.catalog v'.store.catalog) ∧
    (∃ d, d.hasChanges = changed ∧
      v'.published = if z.audience = .listening then u.published ++ [d] else u.published) ∧
    ∃ row, v'.store.catalog.services.get? svc.id = some row ∧ row.lastSyncAt = some z.now ∧
      row.nextSyncAt = z.now.add? (Resync.interval z.now (some last) least changed) := by
  intro u changed
  have hid : svc.id ≠ 0 := Int.ne_of_gt (hsvc.range hc.furnished).1
  have hread : u.store.catalog.Furnished := ((within_reading z svc v).tidy hc).1.furnished
  have hgoing : v'.isCancelled = false := ((calmly_batch z svc least).of_run h hw).going
  obtain ⟨d, x, x', hx, hrun, hcatalog, hpublished⟩ := applied_of_batch hread howner hsource h
  have hs : x.store.catalog.Furnished := hx ▸ hread
  have hcounted : d.hasChanges = changed := by
    rw [hasChanges_of_applyBatch hs hrun, hx]
  have hcarried := applyBatch_ok hs hid hrun
  rw [hx, ← hcatalog] at hcarried
  refine ⟨hcarried.sameRows, ⟨d, hcounted, ?_⟩, ?_⟩
  · rw [hpublished, hgoing]
    simp only [Bool.not_false, and_true]
    rfl
  · obtain ⟨id, row, next, hsame, hrow, hvisit, hnext, hdue⟩ := visited_of_applyBatch hrun
    rw [hsame hid, ← hcatalog] at hrow
    refine ⟨row, hrow, hvisit, ?_⟩
    rw [hdue, ← hnext, ← hcounted, hlast]
    rfl

/-- What is inserted early into a settled catalog counts under another name. -/
theorem Settled.other_name (h : Settled svc sourced last c e)
    (hlisted : ∀ r ∈ sourced, r.ListedBy svc) (hnames : ∀ r ∈ sourced, Text.IsAscii r.name)
    {r : Repo} (hr : e.Heralds sourced r) :
    ∃ x ∈ sourced, x.spec = r.spec ∧ x.lowerName ≠ r.lowerName := by
  cases hfirst : first? sourced r.spec with
  | none => exact absurd rfl (first?_eq_none hfirst r (List.mem_of_find?_eq_some hr.first))
  | some x =>
  obtain ⟨hx, hspec⟩ := first?_some hfirst
  refine ⟨x, hx, hspec, fun hname => ?_⟩
  obtain ⟨l, hleads, hsame⟩ := exists_leads (hspec.symm ▸ hfirst)
  -- The name is that of a leading entry, so a live row has it: its own, or that of its conqueror.
  have hfree : ∀ j row, e.repos.get? j = some row → row.isLive = true →
      row.nameKey ≠ l.lowerName := by
    intro j row hrow hlive hkey
    cases (hr.welcome.new j row hrow hlive).symm.trans
      (meets_iff.mpr (.inl ⟨hlive, hkey.trans (hsame.trans hname)⟩))
  have hfresh : ∀ old ∈ (stakeIn e svc.id sourced).stored, old.spec ≠ l.spec := by
    intro old hold hspec
    obtain ⟨⟨row, hrow, hlive, hview⟩, hstake⟩ := mem_stored.mp hold
    rw [hview] at hspec hstake
    obtain ⟨l', hleads', hspec', hstands⟩ :=
      stands_of_stake hlisted h.holds h.rooted h.batched hrow hlive hstake
    obtain rfl := hleads'.eq_of_spec hleads (hspec'.trans hspec)
    obtain ⟨row', hrow', -, hrowname, -⟩ := hstands.row
    cases hrow.symm.trans hrow'
    exact hfree _ row hrow hlive (nameKey_of_name (hnames l' hleads.mem) hrowname)
  have hlost := loses_again hlisted h.rooted h.batched h.holds hleads hfresh
  rw [← Bool.not_eq_true, wins_iff] at hlost
  refine hlost fun k hk hkname _ => ?_
  obtain ⟨row, hrow, hlive, hview⟩ := (mem_conflicting.mp hk).1
  rw [lowerName_of_conflicting hnames hk, hview] at hkname
  exact (hfree _ row hrow hlive hkname).elim

/-- Where a listing is read without any trace and nothing is planned for it, a pass rests. -/
theorem rests_of_quiet (hw : v.Calm) (hc : v.store.catalog.Tidy) (hsvc : v.store.catalog.Holds svc)
    (howner : svc.owner? = none) (hlast : svc.lastSyncAt = some last)
    (hsource : z.sourceOf svc = .ok (sourced.map .ok))
    (hstill : (z.reading svc v).2.store.catalog = v.store.catalog)
    (hsilent : (z.reading svc v).2.published = v.published)
    (hquiet : (planned v.store.catalog svc sourced).hasChanges = false) :
    ((∃ v', z.batch svc least v = (.ok (), v')) ↔
      (z.now.add? (Resync.backOff z.now last least)).isSome = true) ∧
    ∀ v', z.batch svc least v = (.ok (), v') → Rests z svc last least v v' := by
  refine ⟨?_, fun v' h => ?_⟩
  · obtain ⟨u, hread, hu, hends, hended⟩ := run_batch hw hc.furnished howner hsource least
    rw [hread] at hstill
    have hopened : World.Calm { u with store := opened u.store } := ⟨hu.faults, hu.going⟩
    obtain ⟨d, x, hrun, hx, hsame, -, hd⟩ :=
      @run_applyBatch_quiet z svc sourced least _ hopened (hstill.symm ▸ hc.furnished)
        (hstill.symm ▸ hquiet)
    have hsame : x.store.catalog = v.store.catalog := hsame.trans hstill
    have hvisit := conclude_ok_iff (y := z) hx (hsame.symm ▸ hc.furnished) (hsame.symm ▸ hsvc)
      least d
    unfold Resync.afterBatch at hvisit
    rw [hd, hlast, ← hrun] at hvisit
    refine ⟨fun ⟨v', h⟩ => ?_, fun hnext => hends (hvisit.mpr hnext)⟩
    obtain ⟨d', u', h', -⟩ := hended v' h
    exact hvisit.mp ⟨d', u', h'⟩
  · obtain ⟨hrows, ⟨d, hd, htold⟩, hdue⟩ := told_of_batch hw hc hsvc howner hlast hsource h
    rw [hstill, hquiet] at hd hdue
    rw [hstill, hquiet] at hrows
    rw [hsilent] at htold
    obtain ⟨hadded, hmodified, hdeleted⟩ := Diff.hasChanges_eq_false_iff.mp hd
    refine ⟨hrows rfl, fun hlistening => ⟨d, hadded, hmodified, hdeleted, ?_⟩, fun hdeaf => ?_, hdue⟩
    · rw [htold, if_pos hlistening]
    · rw [htold, if_neg hdeaf]

theorem reading_cases (hw : v.Calm) (hc : v.store.catalog.Tidy) (hsvc : v.store.catalog.Holds svc)
    (howner : svc.owner? = none) (hsource : z.sourceOf svc = .ok (sourced.map .ok))
    (hlisted : ∀ r ∈ sourced, r.ListedBy svc) (hnames : ∀ r ∈ sourced, Text.IsAscii r.name) :
    (¬(z.settings.streamingInsert = true ∧ ∃ r, v.store.catalog.Heralds sourced r) ∧
      (z.reading svc v).2.store.catalog = v.store.catalog ∧
      (z.reading svc v).2.published = v.published) ∨
    (z.settings.streamingInsert = true ∧ (∃ r, v.store.catalog.Heralds sourced r ∧
      ∃ j row, (z.reading svc v).2.store.catalog.repos.get? j = some row ∧ row.isLive = true ∧
        row.spec = r.spec) ∧
      ∀ k row, v.store.catalog.repos.get? k = some row → row.isLive = true →
        (z.reading svc v).2.store.catalog.repos.get? k = some row) := by
  cases hinsert : z.settings.streamingInsert with
  | false =>
      refine .inl ⟨fun h => (by cases h.1), ?_, ?_⟩
      · exact congrArg Store.catalog (still_reading hinsert svc v)
      · exact within_reading_quietly (R := Silent) (.inl hinsert) v
  | true =>
      obtain ⟨known, hknown, hsown⟩ :=
        sown_reading (ready_of_listed hw hc.toRooted hsvc hlisted hnames) howner hinsert hsource
      -- An identity that is known has a live row, so none of its entries is welcome.
      have hfresh : ∀ r, v.store.catalog.Heralds sourced r → r.spec ∉ known := by
        intro r hr hmem
        obtain ⟨j, row, hrow, hlive, hspec⟩ := (hknown r.spec).mp hmem
        cases (hr.welcome.new j row hrow hlive).symm.trans (meets_iff.mpr (.inr hspec))
      rcases hsown.cases with ⟨hall, hsame, hquiet⟩ | ⟨r, hr, -, hrow⟩
      · exact .inl ⟨fun ⟨_, r, hr⟩ => hfresh r hr (hall r hr), hsame, hquiet⟩
      · exact .inr ⟨rfl, ⟨r, hr, hrow⟩, fun k row hk hlive => (hsown.kept hk hlive).1⟩

/-- A second pass over the same listing rests, unless it inserts something early, and then it has
changed something. -/
theorem Settled.next_pass (h : Settled svc sourced last c v.store.catalog)
    (hlisted : ∀ r ∈ sourced, r.ListedBy svc) (hnames : ∀ r ∈ sourced, Text.IsAscii r.name)
    (hw : v.Calm) {again : Service} (hagain : v.store.catalog.Holds again)
    (hid : again.id = svc.id) (howner : svc.owner? = none)
    (hsource : z.sourceOf again = .ok (sourced.map .ok)) (least : Duration) :
    let heralds := z.settings.streamingInsert = true ∧ ∃ r, v.store.catalog.Heralds sourced r
    (¬heralds → ((∃ v', z.batch again least v = (.ok (), v')) ↔
        (z.now.add? (Resync.backOff z.now last least)).isSome = true) ∧
      ∀ v', z.batch again least v = (.ok (), v') → Rests z again last least v v') ∧
    (heralds → ∀ v', z.batch again least v = (.ok (), v') → Stirs z again least v') := by
  intro heralds
  obtain ⟨hkind, howner', hlast⟩ := h.again hagain hid
  rw [howner] at howner'
  have hurn := h.urn_again hagain hid
  have hlisted' : ∀ r ∈ sourced, r.ListedBy again := fun r hr => (hlisted r hr).of_urn hurn
  rcases reading_cases hw h.tidy hagain howner' hsource hlisted' hnames with
    ⟨hnone, hstill, hsilent⟩ | ⟨hinsert, ⟨r, hr, j, row, hrow, hlive, hspec⟩, hkept⟩
  · refine ⟨fun _ => ?_, fun hherald => (hnone hherald).elim⟩
    refine rests_of_quiet hw h.tidy hagain howner' hlast hsource hstill hsilent ?_
    rw [planned_congr hid hkind]
    exact planned_settled hlisted h.rooted h.batched hnames h.holds h.kind
  · refine ⟨fun hnone => (hnone ⟨hinsert, r, hr⟩).elim, fun _ v' hrun => ?_⟩
    have hread := ((within_reading z again v).tidy h.tidy).1
    have hchanges : (planned (z.reading again v).2.store.catalog again sourced).hasChanges
        = true := by
      rw [planned_congr hid hkind]
      exact stirs_of_heralded hlisted h.rooted h.batched hnames h.holds
        (List.mem_of_find?_eq_some hr.first) hr.welcome hread.toRooted hkept hrow hlive hspec
    obtain ⟨-, ⟨d, hd, htold⟩, hdue⟩ := told_of_batch hw h.tidy hagain howner' hlast hsource hrun
    rw [hchanges] at hd hdue
    exact ⟨fun hlistening => ⟨_, d, hd, by rw [htold, if_pos hlistening]⟩, hdue⟩

end

end Syncer

namespace Catalog

open Effect Syncer

/-- Once a batch pass has ended well, whoever makes the next pass over the same listing finds nothing
to do, and that pass ends well if the time of the next visit can be told; unless an entry is inserted
early whose identity counts under another name, and then the pass has changed something. -/
theorem batch_settles {y z : Syncer} {svc again : Service} {sourced : List Repo}
    {least least' : Duration} {w w' v : World} (hreach : Reachable Repo.ListedBy w.store.catalog)
    (hsvc : w.store.catalog.Holds svc) (howner : svc.owner? = none)
    (hlisted : ∀ r ∈ sourced, r.ListedBy svc) (hnames : ∀ r ∈ sourced, Text.IsAscii r.name)
    (hsource : y.sourceOf svc = .ok (sourced.map .ok)) (hrun : y.batch svc least w = (.ok (), w'))
    (hw : v.Calm) (hbetween : v.store.catalog = w'.store.catalog)
    (hagain : v.store.catalog.Holds again) (hid : again.id = svc.id)
    (hsource' : z.sourceOf again = .ok (sourced.map .ok)) :
    let heralds := z.settings.streamingInsert = true ∧ ∃ r, v.store.catalog.Heralds sourced r
    (¬heralds → ((∃ v', z.batch again least' v = (.ok (), v')) ↔
        (z.now.add? (Resync.backOff z.now y.now least')).isSome = true) ∧
      ∀ v', z.batch again least' v = (.ok (), v') → Rests z again y.now least' v v') ∧
    (heralds → (∃ a ∈ sourced, ∃ b ∈ sourced, a.spec = b.spec ∧ a.lowerName ≠ b.lowerName) ∧
      ∀ v', z.batch again least' v = (.ok (), v') → Stirs z again least' v') := by
  have hsettled := settled_of_batch hreach.tidy hsvc howner hsource hlisted hrun
  rw [← hbetween] at hsettled
  obtain ⟨hrests, hstirs⟩ :=
    hsettled.next_pass hlisted hnames hw hagain hid howner hsource' least'
  refine ⟨hrests, fun hherald => ⟨?_, hstirs hherald⟩⟩
  obtain ⟨-, r, hr⟩ := hherald
  obtain ⟨x, hx, hspec, hname⟩ := hsettled.other_name hlisted hnames hr
  exact ⟨x, hx, r, List.mem_of_find?_eq_some hr.first, hspec, hname⟩

/-- What was inserted early in the first pass is left alone in the second. -/
theorem batch_settles_early :
    let y := Sample.eager [.ok (Sample.entry "1" "alpha")] ⟨0⟩
    let z := Sample.nextDay
    ∃ w' again v', y.batch Sample.hub Sample.minute Sample.base = (.ok (), w') ∧
      w'.store.catalog.Holds again ∧ again.id = Sample.hub.id ∧
      z.settings.streamingInsert = true ∧
      z.batch again Sample.minute w' = (.ok (), v') ∧
      Rests z again ⟨0⟩ Sample.minute w' v' := by
  intro y z
  have hlisted : ∀ r ∈ [Sample.entry "1" "alpha"], r.ListedBy Sample.hub :=
    List.forall_mem_singleton.mpr (Sample.entry_listedBy "1" "alpha")
  have hnames : ∀ r ∈ [Sample.entry "1" "alpha"], Text.IsAscii r.name :=
    List.forall_mem_singleton.mpr (by decide)
  have hreach : Reachable Repo.ListedBy Sample.base.store.catalog :=
    .start rfl rfl Sample.furnished_base
  have hok : (y.batch Sample.hub Sample.minute Sample.base).1.isOk = true := by decide +kernel
  have hafter : ((y.batch Sample.hub Sample.minute Sample.base).2.store.catalog.repos.get? 1).map
      (fun row => (row.isLive, row.spec)) = some (true, (Sample.entry "1" "alpha").spec) := by
    decide +kernel
  obtain ⟨⟨⟩, hrun⟩ := exists_of_isOk hok
  obtain ⟨row, hrow, hseen⟩ := Option.map_eq_some_iff.mp hafter
  obtain ⟨hlive, hspec⟩ := Prod.mk.inj hseen
  obtain ⟨again, hagain, hid⟩ :=
    (settled_of_batch hreach.tidy Sample.holds_base rfl rfl hlisted hrun).exists_again
  have hw := (calmly_batch y Sample.hub Sample.minute).of_run hrun ⟨rfl, rfl⟩
  have hsettles := @batch_settles y z Sample.hub again [Sample.entry "1" "alpha"] Sample.minute
    Sample.minute _ _ _ hreach Sample.holds_base rfl hlisted hnames rfl hrun hw rfl hagain hid rfl
  obtain ⟨hends, hrests⟩ := hsettles.1 (by
    rintro ⟨-, r, hfirst, hwelcome⟩
    obtain rfl := List.mem_singleton.mp (List.mem_of_find?_eq_some hfirst)
    cases (hwelcome.new 1 row hrow hlive).symm.trans (meets_iff.mpr (.inr hspec)))
  obtain ⟨v', hagainrun⟩ := hends.mpr (by decide)
  exact ⟨_, again, v', hrun, hagain, hid, rfl, hagainrun, hrests v' hagainrun⟩

end Catalog

namespace Sample

/-- The host lists an identity under two names, of which the one that counts is also that of another
repository, with a smaller identity. -/
def homonyms : List Repo :=
  [entry "2" "c", entry "2" "a", entry "1" "a"]

theorem wellFormed_homonyms : ∀ r ∈ homonyms, r.WellFormed hub := by
  intro r hr
  simp only [homonyms, List.mem_cons, List.not_mem_nil, or_false] at hr
  rcases hr with rfl | rfl | rfl
  · exact ⟨entry_listedBy "2" "c", by decide, by decide⟩
  · exact ⟨entry_listedBy "2" "a", by decide, by decide⟩
  · exact ⟨entry_listedBy "1" "a", by decide, by decide⟩

theorem sort_homonyms : Repo.sort homonyms = [entry "1" "a", entry "2" "a", entry "2" "c"] := by
  have hname : ((entry "2" "c").order (entry "2" "a")).isLE = false := by decide
  have hspec : ((entry "2" "a").order (entry "1" "a")).isLE = false := by decide
  unfold Repo.sort homonyms
  simp [List.mergeSort, hname, hspec]

theorem leads_homonyms {r : Repo} : Syncer.Leads homonyms r ↔ r = entry "1" "a" := by
  have hone : Syncer.first? homonyms (entry "1" "a").spec = some (entry "1" "a") := by
    unfold Syncer.first?
    rw [sort_homonyms]
    rfl
  have htwo : Syncer.first? homonyms (entry "2" "a").spec = some (entry "2" "a") := by
    unfold Syncer.first?
    rw [sort_homonyms]
    rfl
  have hsame : (entry "1" "a").lowerName = (entry "2" "a").lowerName := rfl
  have hlt : (entry "1" "a").spec < (entry "2" "a").spec := by decide
  constructor
  · intro h
    have hr := h.mem
    simp only [homonyms, List.mem_cons, List.not_mem_nil, or_false] at hr
    rcases hr with rfl | rfl | rfl
    · exact absurd (h.1.symm.trans htwo) (by decide)
    · exact absurd hlt (h.2 _ hone hsame)
    · rfl
  · rintro rfl
    refine ⟨hone, fun x hx _ hless => ?_⟩
    have hmem := (Syncer.first?_some hx).1
    simp only [homonyms, List.mem_cons, List.not_mem_nil, or_false] at hmem
    rcases hmem with rfl | rfl | rfl
    · exact absurd hless (by decide)
    · exact absurd hless (by decide)
    · exact Spec.lt_irrefl _ hless

theorem free_homonyms {c : Catalog} {svc : Service} {j : Int} {row : RepoRow}
    (hrow : c.repos.get? j = some row) (hlive : row.isLive = true)
    (hname : row.nameKey = (entry "1" "a").lowerName) (hspec : row.spec = (entry "1" "a").spec) :
    ¬Syncer.Obstructed c svc homonyms := by
  rintro ⟨r, k, other, hobs⟩
  obtain rfl := leads_homonyms.mp hobs.winner.leads
  obtain rfl := Catalog.nameKey_inj hrow hobs.found hlive hobs.live (hname.trans hobs.name.symm)
  cases hrow.symm.trans hobs.found
  exact hobs.other hspec

theorem reading_homonyms :
    let c := ((eager (homonyms.map .ok) ⟨0⟩).reading hub base).2.store.catalog
    (∀ j row, c.repos.get? j = some row → ∃ x ∈ homonyms, x.spec = row.spec) ∧
    ∃ row, c.repos.get? 2 = some row ∧ row.isLive = true ∧
      row.nameKey = (entry "1" "a").lowerName ∧ row.spec = (entry "1" "a").spec := by
  intro c
  have hrows : ∀ e ∈ c.repos.toList, ∃ x ∈ homonyms, x.spec = e.2.spec := by decide +kernel
  have hsecond : (c.repos.get? 2).map (fun row => (row.isLive, row.nameKey, row.spec)) =
      some (true, (entry "1" "a").lowerName, (entry "1" "a").spec) := by decide +kernel
  obtain ⟨row, hrow, hseen⟩ := Option.map_eq_some_iff.mp hsecond
  simp only [Prod.mk.injEq] at hseen
  exact ⟨fun j row hrow => hrows (j, row) (Table.get?_eq_some_iff.mp hrow), row, hrow, hseen⟩

end Sample

namespace Catalog

open Effect Syncer

theorem heralds_homonyms {c e : Catalog} {last : Instant}
    (h : Settled Sample.hub Sample.homonyms last c e)
    (hrows : ∀ j row, c.repos.get? j = some row → ∃ x ∈ Sample.homonyms, x.spec = row.spec) :
    e.Heralds Sample.homonyms (Sample.entry "2" "c") := by
  have hlisted : ∀ r ∈ Sample.homonyms, r.ListedBy Sample.hub :=
    fun r hr => (Sample.wellFormed_homonyms r hr).toListedBy
  refine ⟨rfl, fun j row hrow hlive => ?_, fun hempty => absurd hempty (by decide)⟩
  have hspec : ∃ x ∈ Sample.homonyms, x.spec = row.spec := by
    rcases h.batched.origin j row hrow with ⟨x, hx, z, hz, rfl⟩ | ⟨old, hold, hunwritten⟩
    · obtain ⟨r, hleads, hwritten⟩ := exists_leads_of_written hlisted hx
      cases hrow.symm.trans hz.row
      exact ⟨r, hleads.mem, hwritten.trans hz.landed.spec.symm⟩
    · exact hrows j row (standing_of_unwritten h.batched hrow hlive hold hunwritten).1
  obtain ⟨r, hleads, -, hstands⟩ :=
    stands_of_stake hlisted h.holds h.rooted h.batched hrow hlive (.inr hspec)
  obtain rfl := Sample.leads_homonyms.mp hleads
  obtain ⟨row', hrow', -, hname, hspec'⟩ := hstands.row
  cases hrow.symm.trans hrow'
  refine meets_eq_false ?_ ?_
  · rw [nameKey_of_name (by decide) hname]
    decide
  · rw [hspec']
    decide

theorem unobstructed_homonyms {c d e : Catalog} {svc : Service} {last : Instant}
    (h : Settled Sample.hub Sample.homonyms last c e)
    (hrows : ∀ j row, c.repos.get? j = some row → ∃ x ∈ Sample.homonyms, x.spec = row.spec)
    (hkept : ∀ k row, e.repos.get? k = some row → row.isLive = true → d.repos.get? k = some row) :
    ¬Obstructed d svc Sample.homonyms := by
  have hwinner : Winner c Sample.hub Sample.homonyms (Sample.entry "1" "a") :=
    ⟨Sample.leads_homonyms.mpr rfl, fun j other hother _ _ _ => .inr (hrows j other hother)⟩
  obtain ⟨url, hface⟩ := (Sample.entry_listedBy "1" "a").faceFor
  obtain ⟨j, row, m, hrow, hlive, -, hsame⟩ :=
    offers_of_winner h.holds Sample.wellFormed_homonyms h.batched hwinner hface
  have hname : row.nameKey = (Sample.entry "1" "a").lowerName :=
    nameKey_of_name (by decide) (congrArg Face.name hsame).symm
  exact Sample.free_homonyms (hkept j row hrow hlive) hlive hname (congrArg Face.spec hsame).symm

/-- What the first pass deletes again is inserted again by the second one, a day later, and deleted
once more: it tells of changes, and the host is due again after a minute. -/
theorem early_insert_restless :
    let y := Sample.eager (Sample.homonyms.map .ok) ⟨0⟩
    let z := { y with now := Sample.nextDay.now }
    Reachable Repo.ListedBy Sample.base.store.catalog ∧
      Sample.base.store.catalog.Holds Sample.hub ∧ Sample.hub.owner? = none ∧
      (∀ r ∈ Sample.homonyms, r.ListedBy Sample.hub ∧ Text.IsAscii r.name) ∧
      ∃ w' again v', y.batch Sample.hub Sample.minute Sample.base = (.ok (), w') ∧ w'.Calm ∧
        w'.store.catalog.Holds again ∧ again.id = Sample.hub.id ∧
        z.batch again Sample.minute w' = (.ok (), v') ∧ Stirs z again Sample.minute v' ∧
        ¬Rests z again y.now Sample.minute w' v' := by
  intro y z
  have hwell := Sample.wellFormed_homonyms
  have hlisted : ∀ r ∈ Sample.homonyms, r.ListedBy Sample.hub := fun r hr => (hwell r hr).toListedBy
  have hnames : ∀ r ∈ Sample.homonyms, Text.IsAscii r.name := fun r hr => (hwell r hr).name
  have hreach : Reachable Repo.ListedBy Sample.base.store.catalog :=
    .start rfl rfl Sample.furnished_base
  have hcalm : Sample.base.Calm := ⟨rfl, rfl⟩
  obtain ⟨hrows, row, hrow, hlive, hname, hspec⟩ := Sample.reading_homonyms
  obtain ⟨w', hrun⟩ := (batch_iff hcalm hreach.tidy Sample.holds_base rfl rfl hwell
    Sample.minute).1.mpr ⟨Sample.free_homonyms hrow hlive hname hspec, by
      change (y.now.add? Sample.minute).isSome = true
      decide⟩
  have hsettled := settled_of_batch (y := y) hreach.tidy Sample.holds_base rfl rfl hlisted hrun
  have hherald := heralds_homonyms hsettled hrows
  obtain ⟨again, hagain, hid⟩ := hsettled.exists_again
  have hw : w'.Calm := (calmly_batch y Sample.hub Sample.minute).of_run hrun hcalm
  obtain ⟨-, howner, hlast⟩ := hsettled.again hagain hid
  have hurn := hsettled.urn_again hagain hid
  have hwell' : ∀ r ∈ Sample.homonyms, r.WellFormed again := fun r hr =>
    ⟨(hlisted r hr).of_urn hurn, (hwell r hr).spec, (hwell r hr).name⟩
  rcases reading_cases (z := z) hw hsettled.tidy hagain howner rfl
    (fun r hr => (hwell' r hr).toListedBy) hnames with ⟨hnone, -⟩ | ⟨-, -, hkept⟩
  · exact absurd ⟨rfl, _, hherald⟩ hnone
  obtain ⟨v', hagainrun⟩ := (batch_iff (y := z) hw hsettled.tidy hagain howner rfl hwell'
    Sample.minute).1.mpr ⟨unobstructed_homonyms hsettled hrows hkept, by
        unfold Resync.afterBatch
        rw [hlast]
        generalize Diff.hasChanges _ = changed
        cases changed <;> decide⟩
  have hstirs := (hsettled.next_pass hlisted hnames hw hagain hid rfl rfl Sample.minute).2
    ⟨rfl, _, hherald⟩ v' hagainrun
  refine ⟨hreach, Sample.holds_base, rfl, fun r hr => ⟨hlisted r hr, hnames r hr⟩, w', again, v',
    hrun, hw, hagain, hid, hagainrun, hstirs, fun hrests => ?_⟩
  obtain ⟨row₁, hrow₁, -, hsoon⟩ := hstirs.due
  obtain ⟨row₂, hrow₂, -, hlate⟩ := hrests.due
  cases hrow₁.symm.trans hrow₂
  exact absurd (hsoon.symm.trans hlate) (by decide)

end Catalog

end RepoCatalog
