import RepoCatalog.Proofs.Calm
import RepoCatalog.Proofs.Obstacle

/-!
# When a batch goes through

As long as all is calm, the writes of a batch end well if and only if nothing stands in the way of
a winner and the time of the next visit can be told.
-/
namespace RepoCatalog

open Step
open Time (Instant Duration)

namespace Catalog

open MembershipEdits Syncer

variable {c c₂ c₄ : Catalog} {svc : Service} {previous : List Repo} {d : Diff}
variable {ms as : List Repo} {now : Instant}

theorem mem_claimsAt_of_stored {e : MembershipEdits} {x : Int × List Claim} (hx : x ∈ e.stored)
    {claim : Claim} (hclaim : claim ∈ x.2) :
    claim ∈ claimsAt e.added x.1 ∨ claim ∈ claimsAt e.modified x.1 := by
  have hat : ∀ d : ClaimsByRepo, x ∈ d.entries → claim ∈ claimsAt d x.1 := by
    intro d hmem
    unfold claimsAt
    rw [Dict.get?_eq_some_iff.mpr (hmem : (x.1, x.2) ∈ d.entries)]
    exact hclaim
  exact (List.mem_append.mp hx).imp (hat _) (hat _)

theorem service_of_written (hsvc : c.Holds svc) (hc : c.Furnished) (hd : Feasible c svc previous d)
    {x : Repo} (hx : x ∈ d.modified ++ d.added) {urn : String} {claim : Claim}
    (hclaim : x.claims.get? urn = some claim) :
    ∃ service, claim.serviceId? = some service ∧ c.services.contains service = true := by
  have hown : ∀ url, claim = ⟨svc.urn, url⟩ →
      ∃ service, claim.serviceId? = some service ∧ c.services.contains service = true := by
    rintro url rfl
    obtain ⟨row, hrow, -⟩ := hsvc
    exact ⟨svc.id, Urn.serviceId?_format_of_inRange svc.kind (hc.ids _ _ hrow).2,
      Option.isSome_iff_exists.mpr ⟨row, hrow⟩⟩
  rcases List.mem_append.mp hx with hx | hx
  · obtain ⟨old, hold, -, -, url, hclaims⟩ := hd.modified x hx
    rw [hclaims, Dict.get?_union, Claims.get?_solo] at hclaim
    by_cases hurn : urn = svc.urn
    · rw [if_pos hurn, Option.some_or, Option.some.injEq] at hclaim
      exact hown url hclaim.symm
    · rw [if_neg hurn, Option.none_or] at hclaim
      obtain ⟨s, m, kind, hm, -, rfl, rfl⟩ := (hd.shown old hold).get?_claims.mp hclaim
      obtain ⟨row, hrow⟩ := service_of_member hm
      exact ⟨s, Urn.serviceId?_format_of_inRange kind (hc.ids _ _ hrow).2,
        Option.isSome_iff_exists.mpr ⟨row, hrow⟩⟩
  · obtain ⟨-, -, url, hclaims⟩ := hd.added x hx
    rw [hclaims, Claims.get?_solo] at hclaim
    by_cases hurn : urn = svc.urn
    · rw [if_pos hurn, Option.some.injEq] at hclaim
      exact hown url hclaim.symm
    · rw [if_neg hurn] at hclaim
      cases hclaim

theorem ends_of_fresh (hc : c.Rooted) (hsvc : c.Holds svc) (hd : Feasible c svc previous d)
    (hp : Penned c c₂ d ms as c₄) (hsetting : SameSetting c c₄) {x : Int × List Claim}
    (hx : x ∈ (freshEdits now d ms as previous).stored) {claim : Claim} (hclaim : claim ∈ x.2) :
    ∃ service, claim.serviceId? = some service ∧ c₄.hasEnds ⟨x.1, service⟩ = true := by
  have hat := mem_claimsAt_of_stored hx hclaim
  have hid : x.1 ≠ 0 := by
    intro hzero
    rw [hzero] at hat
    rcases hat with hat | hat
    · have hnil := claimsAt_ofDiff_zero .additions { stamp now d with modified := ms, added := as }
        previous
      rw [show claimsAt (freshEdits now d ms as previous).added 0 = [] from hnil] at hat
      cases hat
    · have hnil := claimsAt_ofDiff_zero .changes { stamp now d with modified := ms, added := as }
        previous
      rw [show claimsAt (freshEdits now d ms as previous).modified 0 = [] from hnil] at hat
      cases hat
  obtain ⟨w, hw, hwid, urn, hhas⟩ : ∃ w ∈ ms ++ as, w.id = x.1 ∧
      ∃ urn, w.claims.get? urn = some claim := by
    rcases (mem_stored_ofDiff (shown_inj hd) hid).mp hat with
      ⟨w, hw, hwid, urn, hhas, -⟩ | ⟨w, hw, hwid, old, hold, hoid, hnews⟩
    · exact ⟨w, List.mem_append_right _ hw, hwid, urn, hhas⟩
    · rcases List.mem_append.mp hw with hw | hw
      · obtain ⟨urn, hhas, -⟩ := hnews
        exact ⟨w, List.mem_append_left _ hw, hwid, urn, hhas⟩
      · exact absurd hnews (not_renews_deleted hd.toReleases hw hold (hoid.trans hwid.symm))
  obtain ⟨z, hz, hland⟩ := exists_of_mem_right hp.pairs hw
  rw [hland.claims] at hhas
  obtain ⟨service, hservice, hexists⟩ := service_of_written hsvc hc.furnished hd hz hhas
  refine ⟨service, hservice, ?_⟩
  unfold Tables.hasEnds
  rw [hsetting.services, hexists, Bool.true_and, ← hwid]
  exact Option.isSome_iff_exists.mpr ⟨w.row, hp.row hw⟩

theorem changeService_of_owner {id : Int} {f : ServiceRow → ServiceRow} {row : ServiceRow}
    (hrow : c.services.get? id = some row) (h : c.hasOwner (f row) = true) :
    c.changeService id f = .ok ((), ⟨{ c.toTables with
      services := c.services.modify id fun _ => f row }, c.sound_putService id (f row) h⟩) := by
  unfold changeService
  rw [hrow]
  exact dif_pos h

theorem Holds.hasOwner (h : c.Holds svc) : svc.namespaceUserId.all c.users.contains = true := by
  obtain ⟨row, hrow, hsame⟩ := h
  unfold ServiceRow.toService? at hsame
  obtain ⟨kind, -, heq⟩ := Option.map_eq_some_iff.mp hsame
  have howner : svc.namespaceUserId = row.namespaceUserId :=
    congrArg Service.namespaceUserId heq.symm
  rw [howner]
  exact c.sound.owners _ (Table.get?_eq_some_iff.mp hrow)

end Catalog

namespace Store

open Catalog

theorem putService_total {s : Store} (hs : s.catalog.Furnished) {svc : Service}
    (hsvc : s.catalog.Holds svc) (visited : Service) (hid : visited.id = svc.id)
    (howner : visited.namespaceUserId = svc.namespaceUserId) :
    ∃ svc' t, putService visited s = (.ok svc', t) := by
  have hne : visited.id ≠ 0 := hid ▸ Int.ne_of_gt (hsvc.range hs).1
  have hs' : s.tick.catalog.Furnished := hs
  obtain ⟨row, hrow, -⟩ := id hsvc
  unfold putService
  rw [bind_of_ok (run_now s), if_neg hne, hid]
  refine ⟨_, _, bind_of_ok (run_write_of_ok hs'.tables (changeService_of_owner hrow ?_))⟩
  unfold Tables.hasOwner
  simp only [howner]
  exact hsvc.hasOwner

end Store

namespace Syncer

open Effect Catalog

variable {y : Syncer} {svc : Service} {sourced : List Repo} {w : World}

theorem recordVisit_ok_iff (hw : w.Calm) (hs : w.store.catalog.Furnished)
    (hsvc : w.store.catalog.Holds svc) (interval : Duration) :
    (∃ w', y.recordVisit svc interval w = (.ok (), w')) ↔
      (y.now.add? interval).isSome = true := by
  unfold recordVisit
  cases hnext : y.now.add? interval with
  | none =>
      constructor
      · rintro ⟨w', hrun⟩
        cases hrun
      · intro h
        cases h
  | some next =>
      refine iff_of_true ?_ rfl
      obtain ⟨svc', s, hput⟩ := Store.putService_total hs hsvc
        { svc with lastSyncAt := some y.now, nextSyncAt := some next } rfl rfl
      exact ⟨_, bind_of_ok (run_store hw.faults _ _ hput)⟩

/-- What is left of a batch once everything is written. -/
def conclude (y : Syncer) (svc : Service) (least : Duration) (d : Diff) : Pass Diff := do
  y.recordVisit svc (Resync.afterBatch y.now svc.lastSyncAt least d)
  if ← Effect.isCancelled then Effect.fail .cancelled
  return d.sort

theorem hasChanges_stamp (d : Diff) {ms as : List Repo} {now : Instant}
    (hms : (stamp now d).modified.length = ms.length)
    (has : (stamp now d).added.length = as.length) :
    ({ stamp now d with modified := ms, added := as } : Diff).hasChanges = d.hasChanges := by
  have hnil : ∀ {rs : List Repo} {xs : List Repo}, rs.length = xs.length →
      xs.isEmpty = rs.isEmpty := by
    intro rs xs hlength
    rw [Bool.eq_iff_iff, List.isEmpty_iff_length_eq_zero, List.isEmpty_iff_length_eq_zero, hlength]
  unfold Diff.hasChanges
  simp only []
  rw [hnil hms, hnil has]
  unfold stamp
  simp only [List.isEmpty_map]

/-- A batch whose writes go through, each in the store that the one before it has left, comes to its
visit. -/
theorem applyBatch_of_writes (hfaults : w.faults = []) (hs : w.store.catalog.Furnished)
    (y : Syncer) (least : Duration) {s₁ s₂ s₃ s₄ s₅ : Store} {ms as : List Repo}
    (hstrip : Store.editMembers { MembershipEdits.empty with
      deleted := (MembershipEdits.ofDiff (planned w.store.catalog svc sourced)
        (atStake w.store.catalog svc sourced)).deleted } w.store = (.ok (), s₁))
    (hdelete : Store.deleteRepos
      (((planned w.store.catalog svc sourced).deleted.filter isOrphaned).map (·.id)) s₁ =
        (.ok (), s₂))
    (hmodify : Store.putRepos (stamp y.now (planned w.store.catalog svc sourced)).modified s₂ =
      (.ok ms, s₃))
    (hadd : Store.putRepos (stamp y.now (planned w.store.catalog svc sourced)).added s₃ =
      (.ok as, s₄))
    (hjoin : Store.editMembers (freshEdits y.now (planned w.store.catalog svc sourced) ms as
      (atStake w.store.catalog svc sourced)) s₄ = (.ok (), s₅)) :
    y.applyBatch svc sourced least w = y.conclude svc least
      { stamp y.now (planned w.store.catalog svc sourced) with modified := ms, added := as }
      { w with store := s₅ } := by
  refine (bind_of_ok (run_store hfaults _ _ (run_held hs svc.id))).trans ?_
  refine (bind_of_ok (run_listRelated hs hfaults sourced)).trans ?_
  refine (bind_of_ok (run_store hfaults _ _ hstrip)).trans ?_
  refine (bind_of_ok (run_store (by exact hfaults) _ _ hdelete)).trans ?_
  refine (bind_of_ok (run_store (by exact hfaults) _ _ hmodify)).trans ?_
  refine (bind_of_ok (run_store (by exact hfaults) _ _ hadd)).trans ?_
  exact bind_of_ok (run_store (by exact hfaults) _ _ hjoin)

theorem run_applyBatch (hw : w.Calm) (hc : w.store.catalog.Rooted) (hsvc : w.store.catalog.Holds svc)
    (hwell : ∀ r ∈ sourced, r.WellFormed svc) (hfree : ¬Obstructed w.store.catalog svc sourced)
    (y : Syncer) (least : Duration) :
    ∃ d v, y.applyBatch svc sourced least w = y.conclude svc least d v ∧ v.Calm ∧
      v.store.catalog.Furnished ∧ v.store.catalog.Holds svc ∧
      d.hasChanges = (planned w.store.catalog svc sourced).hasChanges := by
  have hlisted : ∀ r ∈ sourced, r.ListedBy svc := fun r hr => (hwell r hr).toListedBy
  have hd := feasible_plan (c := w.store.catalog) hlisted
  have hs := hc.furnished
  obtain ⟨s₁, hstrip⟩ := Store.editMembers_total hs.tables (e := { MembershipEdits.empty with
    deleted := (MembershipEdits.ofDiff (planned w.store.catalog svc sourced)
      (atStake w.store.catalog svc sourced)).deleted }) (by rintro x (hx | hx))
  obtain ⟨hstripped, -⟩ := Store.editMembers_ok hs.tables hstrip
  have hs₁ := hs.of_sameSetting hstripped.setting
  obtain ⟨c₂, hdelete, hdeleted⟩ := Store.run_deleteRepos hs₁.tables
    (((planned w.store.catalog svc sourced).deleted.filter isOrphaned).map (·.id))
  have hs₂ : c₂.Furnished := hs₁.of_sameSetting hdeleted.setting
  obtain ⟨ms, s₃, hmodify⟩ := Store.putRepos_total
    (s := { s₁.tick with catalog := c₂ }) hs₂.tables
    (stamp y.now (planned w.store.catalog svc sourced)).modified
    fun pre x post pre' d hsplit hpre => by
      have hsplit' : (stamp y.now (planned w.store.catalog svc sourced)).modified ++
          (stamp y.now (planned w.store.catalog svc sourced)).added =
          pre ++ x :: (post ++ (stamp y.now (planned w.store.catalog svc sourced)).added) := by
        rw [hsplit, List.append_assoc, List.cons_append]
      exact clear_of_free hc hwell hsvc hfree hstripped hdeleted hsplit' hpre
  obtain ⟨hmodified, -⟩ := Store.putRepos_ok (by exact hs₂.tables) hmodify
  have hs₃ := hs₂.of_sameSetting hmodified.setting
  obtain ⟨as, s₄, hadd⟩ := Store.putRepos_total hs₃.tables
    (stamp y.now (planned w.store.catalog svc sourced)).added
    fun pre x post pre' d hsplit hpre => clear_of_free hc hwell hsvc hfree hstripped hdeleted
      (by rw [hsplit, List.append_assoc]) (hmodified.append hpre)
  obtain ⟨hadded, -⟩ := Store.putRepos_ok hs₃.tables hadd
  have hs₄ := hs₃.of_sameSetting hadded.setting
  have hsetting := ((hstripped.setting.trans hdeleted.setting).trans hmodified.setting).trans
    hadded.setting
  have hp := penned hd (fun j spec => spec_deleted hc hd hstripped hdeleted)
    (hdeleted.lastId.trans (congrArg Table.lastId hstripped.repos)) hmodified hadded
  obtain ⟨s₅, hjoin⟩ := Store.editMembers_total hs₄.tables
    (e := freshEdits y.now (planned w.store.catalog svc sourced) ms as
      (atStake w.store.catalog svc sourced))
    fun x hx claim hclaim => ends_of_fresh hc hsvc hd hp hsetting hx hclaim
  obtain ⟨hjoined, -⟩ := Store.editMembers_ok hs₄.tables hjoin
  exact ⟨_, _, applyBatch_of_writes hw.faults hs y least hstrip hdelete hmodify hadd hjoin,
    ⟨hw.faults, hw.going⟩, hs₄.of_sameSetting hjoined.setting,
    (hsvc.of_sameSetting hsetting).of_sameSetting hjoined.setting,
    hasChanges_stamp _ hmodified.length hadded.length⟩

theorem conclude_ok_iff (hw : w.Calm) (hs : w.store.catalog.Furnished)
    (hsvc : w.store.catalog.Holds svc) (least : Duration) (d : Diff) :
    (∃ d' w', y.conclude svc least d w = (.ok d', w')) ↔
      (y.now.add? (Resync.afterBatch y.now svc.lastSyncAt least d)).isSome = true := by
  rw [← recordVisit_ok_iff hw hs hsvc]
  unfold conclude
  constructor
  · rintro ⟨d', w', hrun⟩
    obtain ⟨⟨⟩, v, hvisit, -⟩ := bind_ok_iff.mp hrun
    exact ⟨v, hvisit⟩
  · rintro ⟨v, hvisit⟩
    have hv := (calmly_recordVisit y svc _).of_run hvisit hw
    rw [bind_of_ok hvisit]
    refine ⟨d.sort, v, bind_ok_iff.mpr ⟨v.isCancelled, v, rfl, ?_⟩⟩
    rw [hv.going]
    rfl

/-- The writes of a batch end well if and only if nothing stands in the way of a winner and the
time of the next visit can be told. -/
theorem applyBatch_ok_iff (hw : w.Calm) (hc : w.store.catalog.Rooted)
    (hsvc : w.store.catalog.Holds svc) (hwell : ∀ r ∈ sourced, r.WellFormed svc)
    (least : Duration) :
    (∃ d v, y.applyBatch svc sourced least w = (.ok d, v)) ↔
      ¬Obstructed w.store.catalog svc sourced ∧ (y.now.add? (Resync.afterBatch y.now
        svc.lastSyncAt least (planned w.store.catalog svc sourced))).isSome = true := by
  have hgoes : ¬Obstructed w.store.catalog svc sourced →
      ((∃ d v, y.applyBatch svc sourced least w = (.ok d, v)) ↔ (y.now.add? (Resync.afterBatch y.now
        svc.lastSyncAt least (planned w.store.catalog svc sourced))).isSome = true) := by
    intro hfree
    obtain ⟨d, v, hrun, hv, hs, hsvc', hchanges⟩ := run_applyBatch hw hc hsvc hwell hfree y least
    rw [hrun, conclude_ok_iff hv hs hsvc']
    unfold Resync.afterBatch
    rw [hchanges]
  constructor
  · intro hok
    have hfree : ¬Obstructed w.store.catalog svc sourced := by
      intro hobstructed
      obtain ⟨d, v, hrun⟩ := hok
      obtain ⟨now, hstripped, hdeleted, hmodified, hadded, -, -⟩ :=
        applyBatch_ok hc.furnished (Int.ne_of_gt (hsvc.range hc.furnished).1) hrun
      exact not_savedAll_of_obstructed hc hwell hobstructed hstripped hdeleted
        (hmodified.append hadded)
    exact ⟨hfree, (hgoes hfree).mp hok⟩
  · rintro ⟨hfree, hnext⟩
    exact (hgoes hfree).mpr hnext

/-- A batch pass over a proper listing of a service of the site ends well if and only if its writes
do, and then all that was planned is stored. -/
theorem batch_iff (hw : w.Calm) (hc : w.store.catalog.Tidy) (hsvc : w.store.catalog.Holds svc)
    (howner : svc.owner? = none) (hsource : y.sourceOf svc = .ok (sourced.map .ok))
    (hwell : ∀ r ∈ sourced, r.WellFormed svc) (least : Duration) :
    let c := (y.reading svc w).2.store.catalog
    ((∃ w', y.batch svc least w = (.ok (), w')) ↔ ¬Obstructed c svc sourced ∧
      (y.now.add? (Resync.afterBatch y.now svc.lastSyncAt least (planned c svc sourced))).isSome
        = true) ∧
    ∀ w', y.batch svc least w = (.ok (), w') →
      Carried c (atStake c svc sourced) (planned c svc sourced) w'.store.catalog := by
  obtain ⟨v, hread, hv, hends, hended⟩ := run_batch hw hc.furnished howner hsource least
  obtain ⟨hcv, hsetting⟩ := (within_reading y svc w).tidy hc
  rw [hread] at hcv hsetting ⊢
  have hsvc' := hsvc.of_sameSetting hsetting
  have hwrites := applyBatch_ok_iff (w := { v with store := opened v.store }) (y := y)
    ⟨hv.faults, hv.going⟩ hcv.toRooted hsvc' hwell least
  refine ⟨⟨?_, fun hfree => hends (hwrites.mpr hfree)⟩, fun w' hw' => ?_⟩
  · rintro ⟨w', hw'⟩
    obtain ⟨d, v', hrun, -⟩ := hended w' hw'
    exact hwrites.mp ⟨d, v', hrun⟩
  · obtain ⟨d, v', hrun, hcatalog⟩ := hended w' hw'
    rw [hcatalog]
    exact applyBatch_ok (w := { v with store := opened v.store }) hcv.furnished
      (Int.ne_of_gt (hsvc'.range hcv.furnished).1) hrun

theorem leads_of_apart {r : Repo} (hr : r ∈ sourced)
    (h : ∀ x ∈ sourced, x.spec = r.spec ∨ x.lowerName = r.lowerName → x = r) :
    Leads sourced r := by
  have hfirst : first? sourced r.spec = some r := by
    cases hfind : first? sourced r.spec with
    | none => exact absurd rfl (first?_eq_none hfind r hr)
    | some x =>
        obtain ⟨hx, hspec⟩ := first?_some hfind
        rw [h x hx (.inl hspec)]
  refine ⟨hfirst, fun x hx hname hlt => ?_⟩
  rw [h x (first?_some hx).1 (.inr hname)] at hlt
  exact Spec.lt_irrefl _ hlt

end Syncer

namespace Sample

theorem wellFormed_crowded : ∀ r ∈ crowded, r.WellFormed hub := by
  have hproper : ∀ r ∈ crowded, r.spec.isEmpty = false ∧ Text.IsAscii r.name := by decide
  exact fun r hr => ⟨crowded_listedBy r hr, (hproper r hr).1, (hproper r hr).2⟩

theorem holds_stocked : stocked.store.catalog.Holds hub :=
  ⟨(stocked.store.catalog.services.get? 1).get (by decide), by rfl, by rfl⟩

theorem calm_stocked : stocked.Calm :=
  ⟨by decide, by decide⟩

/-- The host holds none of the copies, so they are in its way only if it lists them. -/
theorem unobstructed_stocked {listed : List Repo}
    (h : ∀ e ∈ stocked.store.catalog.repos.toList, ∀ x ∈ listed, x.spec ≠ e.2.spec) :
    ¬Syncer.Obstructed stocked.store.catalog hub listed := by
  have hfree : ∀ e ∈ stocked.store.catalog.repos.toList,
      stocked.store.catalog.members.get? ⟨e.1, hub.id⟩ = none := by
    decide
  refine Syncer.unobstructed_of_foreign ?_ ?_
  · rintro j row hrow ⟨m, hm⟩
    cases (hfree (j, row) (Table.get?_eq_some_iff.mp hrow)).symm.trans hm
  · exact fun j row hrow => h (j, row) (Table.get?_eq_some_iff.mp hrow)

theorem ends_crowded :
    ∃ w', (syncer (crowded.map .ok)).batch hub ⟨0⟩ stocked = (.ok (), w') := by
  let y := syncer (crowded.map .ok)
  have hstill : (y.reading hub stocked).2.store = stocked.store :=
    Syncer.still_reading rfl hub stocked
  have hiff := (Syncer.batch_iff (y := y) calm_stocked reachable_stocked.tidy holds_stocked rfl rfl
    wellFormed_crowded ⟨0⟩).1
  rw [hstill] at hiff
  have hnext : (y.now.add? ⟨0⟩).isSome = true := by decide
  exact hiff.mpr ⟨unobstructed_stocked (by decide), hnext⟩

/-- The site once the host has brought up two repositories. -/
def paired : World :=
  ((syncer []).perform (.sync hub (entry "2" "beta"))
    ((syncer []).perform (.sync hub (entry "1" "alpha")) base).2).2

/-- What the host lists once the two have swapped their names. -/
def swapped : List Repo :=
  [entry "1" "beta", entry "2" "alpha"]

theorem swapped_wellFormed : ∀ r ∈ swapped, r.WellFormed hub := by
  intro r hr
  rcases List.mem_pair.mp hr with rfl | rfl
  · exact ⟨entry_listedBy "1" "beta", by decide, by decide⟩
  · exact ⟨entry_listedBy "2" "alpha", by decide, by decide⟩

theorem winner_swapped : ∀ r ∈ swapped, Syncer.Winner paired.store.catalog hub swapped r := by
  have hname : ∀ r ∈ swapped, r.lowerName = Text.Ascii.lower r.name :=
    fun r hr => Syncer.lowerName_of_wellFormed (swapped_wellFormed r hr)
  have hlisted : ∀ e ∈ paired.store.catalog.repos.toList, ∃ x ∈ swapped, x.spec = e.2.spec := by
    decide
  intro r hr
  refine ⟨Syncer.leads_of_apart hr fun x hx hsame => ?_, fun j row hrow _ _ _ => ?_⟩
  · rw [hname x hx, hname r hr] at hsame
    rcases List.mem_pair.mp hr with rfl | rfl <;> rcases List.mem_pair.mp hx with rfl | rfl
    · rfl
    · exact absurd hsame (by decide)
    · exact absurd hsame (by decide)
    · rfl
  · exact .inr (hlisted (j, row) (Table.get?_eq_some_iff.mp hrow))

theorem obstructed_swapped : Syncer.Obstructed paired.store.catalog hub swapped := by
  have halpha : ∃ own, paired.store.catalog.repos.get? 1 = some own ∧ own.isLive = true ∧
      own.spec = (entry "1" "beta").spec :=
    ⟨(paired.store.catalog.repos.get? 1).get (by decide), by simp, by decide⟩
  have hbeta : ∃ row, paired.store.catalog.repos.get? 2 = some row ∧ row.isLive = true ∧
      row.nameKey = "beta" ∧ row.spec = (entry "2" "alpha").spec :=
    ⟨(paired.store.catalog.repos.get? 2).get (by decide), by simp, by decide⟩
  obtain ⟨own, hown, hownlive, hownspec⟩ := halpha
  obtain ⟨row, hrow, hlive, hkey, hspec⟩ := hbeta
  have hfirst : entry "1" "beta" ∈ swapped := List.mem_cons_self
  have hsecond : entry "2" "alpha" ∈ swapped := List.mem_cons_of_mem _ List.mem_cons_self
  have hbefore : paired.store.catalog.Before hub 1 2 := by
    unfold Catalog.Before
    decide
  refine ⟨entry "1" "beta", 2, row, winner_swapped _ hfirst, hrow, hlive, ?_, ?_,
    .later (winner_swapped _ hsecond) hspec.symm hown hownlive hownspec hbefore⟩
  · rw [hkey, Syncer.lowerName_of_wellFormed (swapped_wellFormed _ hfirst)]
    decide
  · rw [hspec]
    decide

end Sample

namespace Catalog

open Syncer Effect

/-- As long as all is calm, a batch pass over a proper listing ends well, and what it planned is
stored, unless something stands in the way of a winner once the listing has been read, or the time
of the next visit cannot be told. -/
theorem batch_ok_iff {y : Syncer} {svc : Service} {sourced : List Repo} {w : World}
    (hreach : Reachable Repo.ListedBy w.store.catalog)
    (hsvc : w.store.catalog.Holds svc) (howner : svc.owner? = none) (hw : w.Calm)
    (hsource : y.sourceOf svc = .ok (sourced.map .ok)) (hwell : ∀ r ∈ sourced, r.WellFormed svc)
    (least : Duration) :
    let c := (y.reading svc w).2.store.catalog
    ((∃ w', y.batch svc least w = (.ok (), w')) ↔ ¬Obstructed c svc sourced ∧
      (y.now.add? (Resync.afterBatch y.now svc.lastSyncAt least (planned c svc sourced))).isSome
        = true) ∧
    ∀ w', y.batch svc least w = (.ok (), w') →
      Carried c (atStake c svc sourced) (planned c svc sourced) w'.store.catalog :=
  batch_iff hw hreach.tidy hsvc howner hsource hwell least

/-- The host takes the name of a copy, loses one to the other copy, and lists an identity twice. -/
theorem batch_ok_iff_first :
    let y := Sample.syncer (Sample.crowded.map .ok)
    let c := Sample.stocked.store.catalog
    ∃ w', y.batch Sample.hub ⟨0⟩ Sample.stocked = (.ok (), w') ∧
      ¬Obstructed c Sample.hub Sample.crowded ∧
      Carried c (atStake c Sample.hub Sample.crowded) (planned c Sample.hub Sample.crowded)
        w'.store.catalog := by
  intro y c
  have hstill : (y.reading Sample.hub Sample.stocked).2.store = Sample.stocked.store :=
    still_reading rfl Sample.hub Sample.stocked
  have hiff := batch_ok_iff (y := y) Sample.reachable_stocked Sample.holds_stocked rfl
    Sample.calm_stocked rfl Sample.wellFormed_crowded ⟨0⟩
  rw [hstill] at hiff
  obtain ⟨w', hrun⟩ := Sample.ends_crowded
  exact ⟨w', hrun, (hiff.1.mp ⟨w', hrun⟩).1, hiff.2 w' hrun⟩

/-- Names that are swapped between two repositories defeat a batch pass: the first of them is
written while the other still has its name. -/
theorem batch_fails_on_swap :
    let y := Sample.syncer (Sample.swapped.map .ok)
    Reachable Repo.ListedBy Sample.paired.store.catalog ∧
      Sample.paired.store.catalog.Holds Sample.hub ∧ Sample.hub.owner? = none ∧
      Sample.paired.Calm ∧ y.sourceOf Sample.hub = .ok (Sample.swapped.map .ok) ∧
      (∀ r ∈ Sample.swapped, r.WellFormed Sample.hub) ∧
      ¬∃ w', y.batch Sample.hub ⟨0⟩ Sample.paired = (.ok (), w') := by
  intro y
  have hreach : Reachable Repo.ListedBy Sample.paired.store.catalog :=
    .pass _ _ (.pass _ _ (.start rfl rfl Sample.furnished_base) (Sample.entry_listedBy "1" "alpha"))
      (Sample.entry_listedBy "2" "beta")
  have hholds : Sample.paired.store.catalog.Holds Sample.hub :=
    ⟨(Sample.paired.store.catalog.services.get? 1).get (by decide), by rfl, by rfl⟩
  have hcalm : Sample.paired.Calm := ⟨by decide, by decide⟩
  have hsource : y.sourceOf Sample.hub = .ok (Sample.swapped.map .ok) := rfl
  refine ⟨hreach, hholds, rfl, hcalm, hsource, Sample.swapped_wellFormed, fun hends => ?_⟩
  have hstill : (y.reading Sample.hub Sample.paired).2.store = Sample.paired.store :=
    still_reading rfl Sample.hub Sample.paired
  have hiff := (batch_iff hcalm hreach.tidy hholds rfl hsource Sample.swapped_wellFormed ⟨0⟩).1
  rw [hstill] at hiff
  exact (hiff.mp hends).1 Sample.obstructed_swapped

end Catalog

end RepoCatalog
