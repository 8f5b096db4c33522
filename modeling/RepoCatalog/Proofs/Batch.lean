import RepoCatalog.Proofs.Plan

/-!
# The steps of a batch

A batch that ends well has taken all its steps, one catalog after the other. Here is what the first
two of them leave: an orphan is a tombstone that nobody holds, whatever else is deleted loses the
membership of the service alone, and everything else stays as it is.
-/
namespace RepoCatalog

open Step
open Time (Instant Duration)

namespace Catalog

/-- The service is stored as it is. -/
def Holds (c : Catalog) (svc : Service) : Prop :=
  ∃ row, c.services.get? svc.id = some row ∧ row.toService? svc.id = some svc

theorem holds_of_row {c : Catalog} {id : Int} {row : ServiceRow} {svc : Service}
    (hrow : c.services.get? id = some row) (hload : row.toService? id = some svc) :
    c.Holds svc ∧ svc.id = id := by
  have hid : svc.id = id := by
    unfold ServiceRow.toService? at hload
    obtain ⟨kind, -, rfl⟩ := Option.map_eq_some_iff.mp hload
    rfl
  exact ⟨⟨row, hid ▸ hrow, hid ▸ hload⟩, hid⟩

theorem Holds.contains {c : Catalog} {svc : Service} (h : c.Holds svc) :
    c.services.contains svc.id = true := by
  obtain ⟨row, hrow, -⟩ := h
  rw [Table.contains_eq, hrow]
  rfl

theorem Holds.kindOf? {c : Catalog} {svc : Service} (h : c.Holds svc) :
    c.kindOf? svc.id = some svc.kind := by
  obtain ⟨row, hrow, hsvc⟩ := h
  unfold ServiceRow.toService? at hsvc
  obtain ⟨kind, hkind, hsame⟩ := Option.map_eq_some_iff.mp hsvc
  have hname : svc.kind = kind := congrArg Service.kind hsame.symm
  unfold Catalog.kindOf?
  rw [hrow, Option.bind_some, hkind, hname]

theorem Holds.range {c : Catalog} {svc : Service} (hc : c.Furnished) (h : c.Holds svc) :
    0 < svc.id ∧ Urn.InRange svc.id := by
  obtain ⟨row, hrow, -⟩ := h
  exact hc.ids _ _ hrow

theorem Holds.of_sameSetting {c d : Catalog} {svc : Service} (h : c.Holds svc)
    (hsetting : SameSetting c d) : d.Holds svc := by
  unfold Holds
  rw [hsetting.services]
  exact h

theorem Shows.get?_claims {c : Catalog} {r : Repo} (h : c.Shows r) {urn : String} {claim : Claim} :
    r.claims.get? urn = some claim ↔ ∃ s m kind, c.members.get? ⟨r.id, s⟩ = some m ∧
      c.kindOf? s = some kind ∧ urn = Urn.format kind s ∧ claim = ⟨urn, m.cloneUrl⟩ := by
  obtain ⟨row, -, -, hr⟩ := h
  have hclaims : r.claims = c.claimsOn r.id := by
    rw [hr]
    rfl
  rw [hclaims, get?_claimsOn]

theorem Shows.get?_own {c : Catalog} {svc : Service} (hsvc : c.Holds svc) {r : Repo}
    (h : c.Shows r) {claim : Claim} : r.claims.get? svc.urn = some claim ↔
      ∃ m, c.members.get? ⟨r.id, svc.id⟩ = some m ∧ claim = ⟨svc.urn, m.cloneUrl⟩ := by
  rw [h.get?_claims]
  constructor
  · rintro ⟨s, m, kind, hm, -, hurn, rfl⟩
    rw [← Urn.format_id_inj hurn] at hm
    exact ⟨m, hm, rfl⟩
  · rintro ⟨m, hm, rfl⟩
    exact ⟨svc.id, m, svc.kind, hm, hsvc.kindOf?, rfl, rfl⟩

theorem urn_ne_of_service_ne {svc : Service} {kind : Kind} {s : Int} (h : s ≠ svc.id) :
    Urn.format kind s ≠ svc.urn :=
  fun heq => h (Urn.format_id_inj heq)

/-- What holds between passes whatever they bring up: ids count up from one. -/
structure Rooted (c : Catalog) : Prop where
  furnished : c.Furnished
  lastId : 0 ≤ c.repos.lastId
  ids : ∀ j row, c.repos.get? j = some row → 0 < j

/-- What holds between passes that bring up what sources list: a row is live if and only if some
service holds it. -/
structure Tidy (c : Catalog) : Prop extends Rooted c where
  claimed : ∀ j row, c.repos.get? j = some row →
    (row.isLive = true ↔ ∃ s m, c.members.get? ⟨j, s⟩ = some m)

/-- The steps of a batch, one catalog after the other. -/
inductive Carried (c : Catalog) (previous : List Repo) (d : Diff) (e : Catalog) : Prop where
  | intro {c₁ c₂ c₃ c₄ c₅ : Catalog} {ms as : List Repo} (now : Instant)
      (stripped : Edited c { MembershipEdits.empty with
        deleted := (MembershipEdits.ofDiff d previous).deleted } c₁)
      (deleted : Deleted c₁ ((d.deleted.filter Syncer.isOrphaned).map (·.id)) c₂)
      (modified : SavedAll c₂ (Syncer.stamp now d).modified ms c₃)
      (added : SavedAll c₃ (Syncer.stamp now d).added as c₄)
      (joined : Edited c₄ { MembershipEdits.ofDiff
        { Syncer.stamp now d with modified := ms, added := as } previous with deleted := ∅ } c₅)
      (visited : Visited c₅ e) : Carried c previous d e

end Catalog

namespace Syncer

open Catalog

variable {y : Syncer} {svc : Service} {sourced : List Repo} {least : Duration} {w w' : World}

theorem recordVisit_put {interval : Duration} {u : Unit}
    (h : y.recordVisit svc interval w = (.ok u, w')) :
    ∃ next svc', y.now.add? interval = some next ∧
      Store.putService (svc.visited y.now next) w.store = (.ok svc', w'.store) := by
  unfold recordVisit at h
  cases hnext : y.now.add? interval with
  | none =>
      rw [hnext] at h
      cases h
  | some next =>
      rw [hnext] at h
      obtain ⟨svc', v, hput, hend⟩ := bind_ok_iff.mp h
      cases hend
      exact ⟨next, svc', rfl, Effect.store_ok hput⟩

theorem recordVisit_ok {interval : Duration} {u : Unit} (hs : w.store.catalog.Furnished)
    (hid : svc.id ≠ 0) (h : y.recordVisit svc interval w = (.ok u, w')) :
    Visited w.store.catalog w'.store.catalog := by
  obtain ⟨next, svc', -, hput⟩ := recordVisit_put h
  have hwritten : (svc.visited y.now next).id ≠ 0 := hid
  exact (Store.putService_ok hs hwritten hput).1

/-- A batch that ends well has taken all its steps, and it gives back its plan with the times of the
pass and with what came back from the writes. -/
theorem applyBatch_inv (hs : w.store.catalog.Complete) {diff : Diff}
    (h : y.applyBatch svc sourced least w = (.ok diff, w')) :
    ∃ (c₁ c₂ c₃ c₄ : Catalog) (ms as : List Repo) (v : World) (interval : Duration),
      Edited w.store.catalog { MembershipEdits.empty with
        deleted := (MembershipEdits.ofDiff (planned w.store.catalog svc sourced)
          (atStake w.store.catalog svc sourced)).deleted } c₁ ∧
      Deleted c₁ (((planned w.store.catalog svc sourced).deleted.filter isOrphaned).map (·.id)) c₂ ∧
      SavedAll c₂ (stamp y.now (planned w.store.catalog svc sourced)).modified ms c₃ ∧
      SavedAll c₃ (stamp y.now (planned w.store.catalog svc sourced)).added as c₄ ∧
      Edited c₄ { MembershipEdits.ofDiff { stamp y.now (planned w.store.catalog svc sourced) with
        modified := ms, added := as } (atStake w.store.catalog svc sourced) with deleted := ∅ }
        v.store.catalog ∧
      SameSetting w.store.catalog v.store.catalog ∧
      y.recordVisit svc interval v = (.ok (), w') ∧
      diff = ({ stamp y.now (planned w.store.catalog svc sourced) with
        modified := ms, added := as } : Diff).sort := by
  unfold applyBatch at h
  obtain ⟨held, w₁, hheld, h₁⟩ := bind_ok_iff.mp h
  obtain ⟨rfl, hstore₁⟩ := held_ok hs (Effect.store_ok hheld)
  obtain ⟨found, w₂, hfound, h₂⟩ := bind_ok_iff.mp h₁
  obtain ⟨rfl, hstore₂⟩ := listRelated_ok (hstore₁ ▸ hs) hfound
  rw [hstore₁] at hstore₂ h₂
  have hs₂ : w₂.store.catalog.Complete := hstore₂ ▸ hs
  obtain ⟨u₃, w₃, hstrip, h₃⟩ := bind_ok_iff.mp h₂
  obtain ⟨hstripped, -⟩ := Store.editMembers_ok hs₂ (Effect.store_ok hstrip)
  have hs₃ := hs₂.of_version hstripped.setting.version
  obtain ⟨u₄, w₄, hdelete, h₄⟩ := bind_ok_iff.mp h₃
  obtain ⟨hdeleted, -⟩ := Store.deleteRepos_ok hs₃ (Effect.store_ok hdelete)
  have hs₄ := hs₃.of_version hdeleted.setting.version
  obtain ⟨ms, w₅, hmodify, h₅⟩ := bind_ok_iff.mp h₄
  obtain ⟨hmodified, -⟩ := Store.putRepos_ok hs₄ (Effect.store_ok hmodify)
  have hs₅ := hs₄.of_version hmodified.setting.version
  obtain ⟨as, w₆, hadd, h₆⟩ := bind_ok_iff.mp h₅
  obtain ⟨hadded, -⟩ := Store.putRepos_ok hs₅ (Effect.store_ok hadd)
  have hs₆ := hs₅.of_version hadded.setting.version
  obtain ⟨u₇, w₇, hjoin, h₇⟩ := bind_ok_iff.mp h₆
  obtain ⟨hjoined, -⟩ := Store.editMembers_ok hs₆ (Effect.store_ok hjoin)
  obtain ⟨⟨⟩, w₈, hvisit, h₈⟩ := bind_ok_iff.mp h₇
  obtain ⟨isCancelled, w₉, hcancelled, h₉⟩ := bind_ok_iff.mp h₈
  obtain ⟨rfl, rfl⟩ : w₈.isCancelled = isCancelled ∧ w₈ = w₉ := by
    cases hcancelled
    exact ⟨rfl, rfl⟩
  have hsetting : SameSetting w₂.store.catalog w₇.store.catalog :=
    hstripped.setting.trans (hdeleted.setting.trans (hmodified.setting.trans
      (hadded.setting.trans hjoined.setting)))
  rw [hstore₂] at hstripped hsetting
  split at h₉
  · cases h₉
  · cases h₉
    exact ⟨_, _, _, _, ms, as, w₇, _, hstripped, hdeleted, hmodified, hadded, hjoined,
      hsetting, hvisit, rfl⟩

theorem applyBatch_ok (hs : w.store.catalog.Furnished) (hid : svc.id ≠ 0) {diff : Diff}
    (h : y.applyBatch svc sourced least w = (.ok diff, w')) :
    Carried w.store.catalog (atStake w.store.catalog svc sourced)
      (planned w.store.catalog svc sourced) w'.store.catalog := by
  obtain ⟨_, _, _, _, ms, as, v, interval, hstripped, hdeleted, hmodified, hadded, hjoined,
    hsetting, hvisit, -⟩ := applyBatch_inv hs.tables h
  have hvisited := recordVisit_ok (hs.of_sameSetting hsetting) hid hvisit
  exact .intro y.now hstripped hdeleted hmodified hadded hjoined hvisited

end Syncer

namespace Catalog

open MembershipEdits Syncer

variable {c d₁ d₂ : Catalog} {svc : Service} {previous : List Repo} {d : Diff}

/-- Whether a membership goes with what a difference deletes. -/
def Goes (svc : Service) (d : Diff) (k : MemberKey) : Prop :=
  ∃ x ∈ d.deleted, x.id = k.repo ∧ (x.claims.isEmpty = true ∨ k.service = svc.id)

theorem shown_inj (hd : Feasible c svc previous d) :
    ∀ a ∈ previous, ∀ b ∈ previous, a.id = b.id → a = b :=
  fun a ha b hb => (hd.shown a ha).eq_of_id (hd.shown b hb)

theorem Rooted.repo_pos (hc : c.Rooted) {k : MemberKey} {m : Membership}
    (h : c.members.get? k = some m) : 0 < k.repo := by
  obtain ⟨row, hrow⟩ := repo_of_member h
  exact hc.ids _ _ hrow

theorem drops_of_released (hd : Releases c svc previous d) {x old : Repo} (hx : x ∈ d.deleted)
    (hold : old ∈ previous) (hid : x.id = old.id) {k : MemberKey} (hk : x.id = k.repo)
    (hne : k.repo ≠ 0) {urn : String} {claim : Claim} (hhad : old.claims.get? urn = some claim)
    (hlost : x.claims.get? urn = none) (hservice : claim.serviceId? = some k.service) :
    ({ MembershipEdits.empty with deleted := (ofDiff d previous).deleted } :
      MembershipEdits).drops k = true := by
  have hinj : ∀ a ∈ previous, ∀ b ∈ previous, a.id = b.id → a = b :=
    fun a ha b hb => (hd.shown a ha).eq_of_id (hd.shown b hb)
  unfold MembershipEdits.drops Store.serviceIds
  rw [List.contains_iff_mem, List.mem_filterMap]
  refine ⟨claim, (mem_claimsAt_ofDiff .deletions hinj hne).mpr (.inr ?_), hservice⟩
  exact ⟨x, List.mem_append_right _ hx, hk, old, hold, hid.symm.trans hk,
    ClaimEdits.mem_deleted.mpr ⟨urn, hhad, hlost⟩⟩

theorem lost_of_drops (hd : Feasible c svc previous d) {k : MemberKey} (hid : k.repo ≠ 0)
    (hdrops : ({ MembershipEdits.empty with deleted := (ofDiff d previous).deleted } :
      MembershipEdits).drops k = true) :
    ∃ x ∈ d.deleted, x.id = k.repo ∧ (x.claims = ∅ ∨ k.service = svc.id) := by
  unfold MembershipEdits.drops Store.serviceIds at hdrops
  rw [List.contains_iff_mem, List.mem_filterMap] at hdrops
  obtain ⟨claim, hclaim, hservice⟩ := hdrops
  rcases (mem_claimsAt_ofDiff .deletions (shown_inj hd) hid).mp hclaim with
    ⟨x, hx, hxid, -⟩ | ⟨x, hx, hxid, old, hold, hoid, hgone⟩
  · exact absurd (hxid.symm.trans (hd.added x hx).1) hid
  obtain ⟨urn, hhad, hhas⟩ := ClaimEdits.mem_deleted.mp hgone
  obtain ⟨s, m', kind', -, -, hurn, hclaim'⟩ := (hd.shown old hold).get?_claims.mp hhad
  have hs : k.service = s := by
    rw [hclaim'] at hservice
    exact Urn.eq_of_serviceId?_format (hurn ▸ hservice)
  rcases List.mem_append.mp hx with hx | hx
  · obtain ⟨old', hold', hid', -, url, hclaims⟩ := hd.modified x hx
    rw [shown_inj hd old' hold' old hold (hid'.symm.trans (hxid.trans hoid.symm))] at hclaims
    rw [hclaims, Dict.get?_union, hhad, Option.or_eq_none_iff] at hhas
    cases hhas.2
  · obtain ⟨old', hold', hid', -, hclaims⟩ := hd.deleted x hx
    rw [shown_inj hd old' hold' old hold (hid'.symm.trans (hxid.trans hoid.symm))] at hclaims
    refine ⟨x, hx, hxid, hclaims.imp_right fun hclaims => ?_⟩
    rw [hclaims, Dict.get?_erase] at hhas
    split at hhas
    · rename_i heq
      exact hs.trans (Urn.format_id_inj (hurn.symm.trans heq))
    · rw [hhad] at hhas
      cases hhas

theorem drops_of_lost (hc : c.Rooted) (hsvc : c.Holds svc) (hd : Feasible c svc previous d)
    {k : MemberKey} {m : Membership} (hm : c.members.get? k = some m) {x : Repo}
    (hx : x ∈ d.deleted) (hxid : x.id = k.repo) (hlost : x.claims = ∅ ∨ k.service = svc.id) :
    ({ MembershipEdits.empty with deleted := (ofDiff d previous).deleted } :
      MembershipEdits).drops k = true := by
  obtain ⟨kind, hkind⟩ := hc.furnished.kindOf?_isSome hm
  have hrange : Urn.InRange k.service := by
    obtain ⟨row, hrow⟩ := service_of_member hm
    exact (hc.furnished.ids _ _ hrow).2
  obtain ⟨old, hold, hid', -, hclaims⟩ := hd.deleted x hx
  have hhad : old.claims.get? (Urn.format kind k.service) =
      some ⟨Urn.format kind k.service, m.cloneUrl⟩ := by
    refine (hd.shown old hold).get?_claims.mpr ⟨k.service, m, kind, ?_, hkind, rfl, rfl⟩
    rw [show old.id = k.repo from hid'.symm.trans hxid]
    exact hm
  refine drops_of_released hd.toReleases hx hold hid' hxid (Int.ne_of_gt (hc.repo_pos hm)) hhad ?_
    (Urn.serviceId?_format_of_inRange kind hrange)
  rcases hlost with hempty | hservice
  · rw [hempty, Dict.get?_empty]
  · rcases hclaims with hclaims | hclaims
    · rw [hclaims, Dict.get?_empty]
    · have hurn : Urn.format kind k.service = svc.urn := by
        rw [hservice] at hkind ⊢
        cases hkind.symm.trans hsvc.kindOf?
        rfl
      rw [hclaims, Dict.get?_erase, if_pos hurn]

theorem drops_stale (hc : c.Rooted) (hsvc : c.Holds svc) (hd : Feasible c svc previous d)
    {k : MemberKey} {m : Membership} (hm : c.members.get? k = some m) :
    ({ MembershipEdits.empty with deleted := (ofDiff d previous).deleted } :
      MembershipEdits).drops k = true ↔
        ∃ x ∈ d.deleted, x.id = k.repo ∧ (x.claims = ∅ ∨ k.service = svc.id) := by
  constructor
  · exact lost_of_drops hd (Int.ne_of_gt (hc.repo_pos hm))
  · rintro ⟨x, hx, hxid, hlost⟩
    exact drops_of_lost hc hsvc hd hm hx hxid hlost

theorem mem_orphans (hc : c.Rooted) (hd : Feasible c svc previous d) {id : Int} :
    id ∈ (d.deleted.filter isOrphaned).map (·.id) ↔
      ∃ x ∈ d.deleted, x.id = id ∧ x.claims.isEmpty = true := by
  simp only [List.mem_map, List.mem_filter]
  constructor
  · rintro ⟨x, ⟨hx, horphan⟩, hid⟩
    unfold isOrphaned at horphan
    rw [Bool.and_eq_true] at horphan
    exact ⟨x, hx, hid, horphan.2⟩
  · rintro ⟨x, hx, hid, hempty⟩
    obtain ⟨old, hold, hoid, -⟩ := hd.deleted x hx
    obtain ⟨row, hrow, -⟩ := hd.shown old hold
    have hpos := hc.ids _ _ hrow
    refine ⟨x, ⟨hx, ?_⟩, hid⟩
    unfold isOrphaned
    rw [hempty, Bool.and_true, bne_iff_ne, hoid]
    exact Int.ne_of_gt hpos

theorem members_deleted (hc : c.Rooted) (hsvc : c.Holds svc) (hd : Feasible c svc previous d)
    (hstripped : Edited c { MembershipEdits.empty with deleted := (ofDiff d previous).deleted } d₁)
    (hdeleted : Deleted d₁ ((d.deleted.filter isOrphaned).map (·.id)) d₂) (k : MemberKey) :
    (Goes svc d k → d₂.members.get? k = none) ∧
      (¬Goes svc d k → d₂.members.get? k = c.members.get? k) := by
  have hnone : ∀ claim, ¬({ MembershipEdits.empty with deleted := (ofDiff d previous).deleted } :
      MembershipEdits).Stores k claim := by
    rintro claim ⟨h | h, -⟩ <;> cases h
  have hstrip := hstripped.get?_of_not_stores hnone
  rw [hdeleted.members k]
  cases hm : c.members.get? k with
  | none =>
      rw [hm, ite_self] at hstrip
      rw [hstrip, ite_self]
      exact ⟨fun _ => rfl, fun _ => rfl⟩
  | some m =>
      rw [hm] at hstrip
      constructor
      · rintro ⟨x, hx, hid, hempty | hservice⟩
        · rw [if_pos ((mem_orphans hc hd).mpr ⟨x, hx, hid, hempty⟩)]
        · have hdrops := (drops_stale hc hsvc hd hm).mpr ⟨x, hx, hid, .inr hservice⟩
          rw [hstrip, if_pos hdrops, ite_self]
      · intro hstays
        rw [if_neg, hstrip, if_neg]
        · intro hdrops
          obtain ⟨x, hx, hid, hlost⟩ := (drops_stale hc hsvc hd hm).mp hdrops
          refine hstays ⟨x, hx, hid, hlost.imp_left fun hempty => ?_⟩
          rw [hempty]
          rfl
        · intro horphan
          obtain ⟨x, hx, hid, hempty⟩ := (mem_orphans hc hd).mp horphan
          exact hstays ⟨x, hx, hid, .inl hempty⟩

theorem rows_deleted (hc : c.Rooted) (hd : Feasible c svc previous d)
    (hstripped : Edited c { MembershipEdits.empty with deleted := (ofDiff d previous).deleted } d₁)
    (hdeleted : Deleted d₁ ((d.deleted.filter isOrphaned).map (·.id)) d₂) (j : Int) :
    ((∃ x ∈ d.deleted, x.id = j ∧ x.claims.isEmpty = true) → ∀ old, c.repos.get? j = some old →
        ∃ row, d₂.repos.get? j = some row ∧ row.isLive = false ∧ row.spec = old.spec) ∧
      ((¬∃ x ∈ d.deleted, x.id = j ∧ x.claims.isEmpty = true) →
        d₂.repos.get? j = c.repos.get? j) := by
  obtain ⟨now, hrepos⟩ := hdeleted.repos
  rw [hrepos, hstripped.repos]
  simp only [mem_orphans hc hd]
  constructor
  · intro horphan old hold
    refine ⟨bury now old, ?_, not_isLive_bury now old, spec_bury now old⟩
    rw [hold, Option.map_some, if_pos horphan]
  · intro hother
    cases c.repos.get? j with
    | none => rfl
    | some old => rw [Option.map_some, if_neg hother]

theorem spec_deleted (hc : c.Rooted) (hd : Feasible c svc previous d)
    (hstripped : Edited c { MembershipEdits.empty with deleted := (ofDiff d previous).deleted } d₁)
    (hdeleted : Deleted d₁ ((d.deleted.filter isOrphaned).map (·.id)) d₂) {j : Int} {spec : Spec} :
    (∃ row, d₂.repos.get? j = some row ∧ row.spec = spec) ↔
      ∃ old, c.repos.get? j = some old ∧ old.spec = spec := by
  obtain ⟨horphan, hother⟩ := rows_deleted hc hd hstripped hdeleted j
  by_cases h : ∃ x ∈ d.deleted, x.id = j ∧ x.claims.isEmpty = true
  · cases hold : c.repos.get? j with
    | none =>
        obtain ⟨x, hx, rfl, -⟩ := h
        obtain ⟨y, hy, hid, -⟩ := hd.deleted x hx
        obtain ⟨row, hrow, -⟩ := hd.shown y hy
        rw [hid, hrow] at hold
        cases hold
    | some old =>
        obtain ⟨row, hrow, -, hspec⟩ := horphan h old hold
        simp only [hrow, Option.some.injEq, exists_eq_left', hspec]
  · rw [hother h]

end Catalog

end RepoCatalog
