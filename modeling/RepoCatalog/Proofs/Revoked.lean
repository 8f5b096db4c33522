import RepoCatalog.Proofs.Bystanders
import RepoCatalog.Proofs.Leaves
import RepoCatalog.Proofs.Streamed

/-!
# Losing the credentials

When the source of a service refuses the credentials, the service is left with nothing, whatever
else was listed and whatever was written before the refusal; what nobody holds any more becomes a
tombstone, the visit is on record, and the caller is told.

A batch pass takes an empty listing for granted then, and a streaming pass counts nothing as seen.
So the first half is about plans for nothing, and the second half about streams that break off.
-/
namespace RepoCatalog

open Step
open Time (Duration)

/-- Whether the source refuses the credentials. -/
def SourceError.isCredential (e : SourceError) : Bool :=
  e.isUnauthorized || e.isForbidden || e.isAccountSuspended

namespace SyncError

/-- The gravest failure of credentials among some failures of a source. -/
def gravest (errors : List SourceError) : SyncError :=
  if errors.any (·.isUnauthorized) then .unauthorized
  else if errors.any (·.isForbidden) then .forbidden
  else .accountSuspended

theorem isUnauthorized_multi (es : List SyncError) :
    (SyncError.multi es).isUnauthorized = es.any (·.isUnauthorized) :=
  anyLeaf_multi _ es

theorem isForbidden_multi (es : List SyncError) :
    (SyncError.multi es).isForbidden = es.any (·.isForbidden) :=
  anyLeaf_multi _ es

theorem isAccountSuspended_multi (es : List SyncError) :
    (SyncError.multi es).isAccountSuspended = es.any (·.isAccountSuspended) :=
  anyLeaf_multi _ es

theorem isSome_credentialFailure? (e : SyncError) : e.credentialFailure?.isSome =
    (e.isUnauthorized || e.isForbidden || e.isAccountSuspended) := by
  unfold credentialFailure?
  cases e.isUnauthorized <;> cases e.isForbidden <;> cases e.isAccountSuspended <;> rfl

theorem isSome_credentialFailure?_source (service : String) (e : SourceError) :
    (SyncError.source service e).credentialFailure?.isSome = e.isCredential := by
  rw [isSome_credentialFailure?]
  unfold isUnauthorized isForbidden isAccountSuspended
  simp only [anyLeaf]
  rfl

theorem isSome_credentialFailure?_multi {e : SyncError} {es : List SyncError} (he : e ∈ es)
    (h : e.credentialFailure?.isSome = true) :
    (SyncError.multi es).credentialFailure?.isSome = true := by
  rw [isSome_credentialFailure?, Bool.or_eq_true, Bool.or_eq_true] at h ⊢
  rw [isUnauthorized_multi, isForbidden_multi, isAccountSuspended_multi]
  rcases h with (h | h) | h
  · exact .inl (.inl (List.any_eq_true.mpr ⟨e, he, h⟩))
  · exact .inl (.inr (List.any_eq_true.mpr ⟨e, he, h⟩))
  · exact .inr (List.any_eq_true.mpr ⟨e, he, h⟩)

theorem credentialFailure?_sources (service : String) {errors : List SourceError}
    (h : ∃ e ∈ errors, e.isCredential = true) :
    (SyncError.multi (errors.map (.source service))).credentialFailure? =
      some (gravest errors) := by
  have hany : ∀ p q, (∀ e, anyLeaf p (.source service e) = q e) →
      (errors.map (.source service)).any (anyLeaf p) = errors.any q := by
    intro p q hpq
    rw [List.any_map]
    exact congrArg errors.any (funext hpq)
  unfold credentialFailure? gravest
  rw [isUnauthorized_multi, isForbidden_multi, isAccountSuspended_multi]
  unfold isUnauthorized isForbidden isAccountSuspended
  rw [hany _ SourceError.isUnauthorized fun e => by simp only [anyLeaf],
    hany _ SourceError.isForbidden fun e => by simp only [anyLeaf],
    hany _ SourceError.isAccountSuspended fun e => by simp only [anyLeaf]]
  obtain ⟨e, he, hcredential⟩ := h
  unfold SourceError.isCredential at hcredential
  split
  · rfl
  · rename_i hunauthorized
    split
    · rfl
    · rename_i hforbidden
      have hsuspended : errors.any (·.isAccountSuspended) = true := by
        rw [Bool.or_eq_true, Bool.or_eq_true] at hcredential
        rcases hcredential with (h | h) | h
        · exact absurd (List.any_eq_true.mpr ⟨e, he, h⟩) hunauthorized
        · exact absurd (List.any_eq_true.mpr ⟨e, he, h⟩) hforbidden
        · exact List.any_eq_true.mpr ⟨e, he, h⟩
      rw [if_pos hsuspended]

theorem isSome_credentialFailure?_gravest (errors : List SourceError) :
    (gravest errors).credentialFailure?.isSome = true := by
  rw [isSome_credentialFailure?]
  unfold gravest
  split
  · rfl
  · split <;> rfl

end SyncError

theorem mem_ofItems_errors {items : List Item} {e : SourceError} :
    e ∈ (Listing.ofItems items).errors ↔ .error e ∈ items := by
  unfold Listing.ofItems
  rw [List.mem_filterMap]
  constructor
  · rintro ⟨item, hitem, herror⟩
    cases item with
    | ok r => cases herror
    | error e' =>
        cases herror
        exact hitem
  · exact fun hitem => ⟨_, hitem, rfl⟩

/-- Some item of a listing says that the credentials are refused. -/
def Refuses (items : List Item) : Prop :=
  ∃ e, .error e ∈ items ∧ e.isCredential = true

theorem Syncer.judge_of_refused (svc : Service) {items : List Item} (h : Refuses items) :
    Syncer.judge svc (.ofItems items) =
      .ok ([], some (.gravest (Listing.ofItems items).errors)) := by
  obtain ⟨e, he, hcredential⟩ := h
  have hmem := mem_ofItems_errors.mpr he
  have hsome : ¬(Listing.ofItems items).errors.isEmpty = true := by
    rw [List.isEmpty_iff]
    exact List.ne_nil_of_mem hmem
  unfold judge
  rw [if_neg hsome]
  simp only [SyncError.credentialFailure?_sources svc.displayName ⟨e, hmem, hcredential⟩]

namespace Catalog

open Syncer

variable {c d e : Catalog} {svc : Service}

theorem compared_nil (c : Catalog) (svc : Service) :
    (compared c svc []).modified = [] ∧ (compared c svc []).added = [] := by
  have hnone : ∀ r ∈ ([] : List Repo), r.ListedBy svc := fun r hr => (by cases hr)
  simp only [List.eq_nil_iff_forall_not_mem]
  constructor
  · intro x hx
    obtain ⟨old, -, r, hleads, -⟩ := (mem_compared_modified hnone).mp hx
    cases hleads.mem
  · intro x hx
    cases ((mem_compared_added hnone).mp hx).1.mem

theorem planned_nil_written (c : Catalog) (svc : Service) :
    (planned c svc []).modified ++ (planned c svc []).added = [] := by
  rw [planned_written, (compared_nil c svc).1, (compared_nil c svc).2]
  rfl

theorem mem_planned_nil_deleted {x : Repo} : x ∈ (planned c svc []).deleted ↔
    ∃ old, c.Shows old ∧ c.isHeld svc.id old.id = true ∧
      x = { old with claims := old.claims.erase svc.urn } := by
  have hnone : ∀ r ∈ ([] : List Repo), r.ListedBy svc := fun r hr => (by cases hr)
  have hfirst : ∀ spec, first? [] spec = none := fun spec => by
    unfold first? Repo.sort
    rw [List.mergeSort_nil, List.find?_nil]
  have hstored : ∀ old, old ∈ (stakeIn c svc.id []).stored ↔
      c.Shows old ∧ c.isHeld svc.id old.id = true := by
    intro old
    rw [mem_stored]
    refine and_congr_right fun _ => or_iff_left ?_
    rintro ⟨r, hr, -⟩
    cases hr
  have hcompared : x ∈ (compared c svc []).deleted ↔ ∃ old, c.Shows old ∧
      c.isHeld svc.id old.id = true ∧ x = { old with claims := old.claims.erase svc.urn } := by
    rw [mem_compared_deleted hnone]
    refine exists_congr fun old => ?_
    rw [hstored, and_assoc]
    refine and_congr_right fun _ => and_congr_right fun _ => ?_
    constructor
    · rintro ⟨-, ⟨-, rfl⟩ | ⟨hsome, -⟩⟩
      · rfl
      · exact absurd (hfirst old.spec) hsome
    · rintro rfl
      exact ⟨fun r hleads => (by cases hleads.mem), .inl ⟨hfirst old.spec, rfl⟩⟩
  obtain ⟨dropped, hres⟩ := planned_resolved c svc []
  rw [hres.deleted, List.mem_append, hcompared]
  refine or_iff_left fun hx => ?_
  -- Without entries nobody takes a name from anybody.
  obtain ⟨z, hz, -⟩ := hres.origin x hx
  rw [(compared_nil c svc).1, (compared_nil c svc).2] at hz
  rcases hz with ⟨a, ha, -⟩ | ⟨hz, -⟩
  · cases ha
  · cases hz

theorem not_orphan_of_held (hs : c.Furnished) {k : MemberKey} (hk : k.service ≠ svc.id)
    {m : Membership} (hm : c.members.get? k = some m) : ¬Orphans (planned c svc []) k.repo := by
  rintro ⟨x, hx, hid, hempty⟩
  obtain ⟨old, hshows, -, rfl⟩ := mem_planned_nil_deleted.mp hx
  have hkey : k = ⟨old.id, k.service⟩ := by rw [show old.id = k.repo from hid]
  rw [hkey] at hm
  obtain ⟨kind, hkind⟩ := hs.kindOf?_isSome hm
  have hclaim : old.claims.get? (Urn.format kind k.service) =
      some ⟨Urn.format kind k.service, m.cloneUrl⟩ :=
    hshows.get?_claims.mpr ⟨k.service, m, kind, hm, hkind, rfl, rfl⟩
  have hgone := Dict.isEmpty_iff.mp hempty (Urn.format kind k.service)
  rw [Dict.get?_erase, if_neg (urn_ne_of_service_ne hk), hclaim] at hgone
  cases hgone

/-- A batch of nothing takes everything from the service. -/
theorem Batched.emptied (h : Batched c svc (planned c svc []) e) (hc : c.Tidy) (j : Int) :
    e.members.get? ⟨j, svc.id⟩ = none := by
  rw [Option.eq_none_iff_forall_ne_some]
  intro m hm
  obtain ⟨row, hrow⟩ := repo_of_member hm
  have hnothing : ∀ x ∈ (planned c svc []).modified ++ (planned c svc []).added, False := by
    intro x hx
    rw [planned_nil_written] at hx
    cases hx
  rcases h.origin j row hrow with ⟨x, hx, -⟩ | ⟨old, hold, -⟩
  · exact hnothing x hx
  by_cases horphan : Orphans (planned c svc []) j
  · rw [(h.orphaned j old hold horphan).2 svc.id] at hm
    cases hm
  obtain ⟨-, hmembers⟩ := h.standing j old hold (fun x hx => (hnothing x hx).elim) horphan
  by_cases hgoes : Goes svc (planned c svc []) ⟨j, svc.id⟩
  · rw [(hmembers svc.id).1 hgoes] at hm
    cases hm
  · -- What the service still holds it held before, and that is what it loses.
    rw [(hmembers svc.id).2 hgoes] at hm
    have hlive := (hc.claimed j old hold).mpr ⟨svc.id, m, hm⟩
    refine hgoes ⟨_, mem_planned_nil_deleted.mpr ⟨c.view (j, old), ⟨old, hold, hlive, rfl⟩, ?_,
      rfl⟩, rfl, .inr rfl⟩
    exact congrArg Option.isSome hm

theorem Batched.spares (h : Batched c svc (planned c svc []) e) (hs : c.Furnished)
    {k : MemberKey} (hk : k.service ≠ svc.id) : e.members.get? k = c.members.get? k := by
  cases hm : c.members.get? k with
  | none => exact h.no_member hk hm
  | some m =>
      obtain ⟨old, hold⟩ := repo_of_member hm
      exact ((h.others hk hold (not_orphan_of_held hs hk hm)).1).trans hm

end Catalog

namespace Catalog

variable {c d e : Catalog} {svc : Service} {x x' : Repo} {ids : List Int}

/-- Services, users and jobs are the same, and no service but this one has anything that it did not
have. -/
structure GivesNobodyElse (svc : Service) (c d : Catalog) : Prop where
  setting : SameSetting c d
  members : ∀ k : MemberKey, k.service ≠ svc.id → c.members.get? k = none → d.members.get? k = none

theorem GivesNobodyElse.refl (svc : Service) (c : Catalog) : GivesNobodyElse svc c c :=
  ⟨.refl c, fun _ _ h => h⟩

theorem GivesNobodyElse.trans (h : GivesNobodyElse svc c d) (h' : GivesNobodyElse svc d e) :
    GivesNobodyElse svc c e :=
  ⟨h.setting.trans h'.setting, fun k hk hnone => h'.members k hk (h.members k hk hnone)⟩

theorem Deleted.givesNobodyElse (h : Deleted c ids d) (svc : Service) :
    GivesNobodyElse svc c d := by
  refine ⟨h.setting, fun k _ hnone => ?_⟩
  rw [h.members]
  split
  · rfl
  · exact hnone

theorem Joined.givesNobodyElse (h : Joined c svc x x' d) : GivesNobodyElse svc c d :=
  ⟨h.setting, fun _ hk hnone =>
    (h.member_of_ne fun hown => hk (congrArg MemberKey.service hown)).trans hnone⟩

end Catalog

namespace Effect

/-- No service but this one has been given anything. -/
def GivesNobodyElse (svc : Service) (w w' : World) : Prop :=
  w.store.catalog.Furnished → Catalog.GivesNobodyElse svc w.store.catalog w'.store.catalog

variable {svc : Service}

instance : Asks (GivesNobodyElse svc) :=
  asks_onFurnished (S := Catalog.GivesNobodyElse svc) (.refl svc) .trans fun hs h =>
    hs.of_sameSetting h.setting

end Effect

namespace Syncer

open Effect Catalog

variable {y : Syncer} {svc : Service} {r : Repo} {items : List Item} {allowed : Bool}
  {least : Duration} {w w' : World}

theorem reconcile_givesNobodyElse (hs : w.store.catalog.Furnished) {d : Diff}
    (h : y.reconcile svc r w = (.ok d, w')) :
    Catalog.GivesNobodyElse svc w.store.catalog w'.store.catalog := by
  obtain ⟨rival, existing, ds, d', v, v', htold, hstore, hdisplace, -, hend⟩ :=
    reconcile_inv hs.tables h
  rw [← hstore] at hs ⊢
  obtain ⟨hdeleted, -⟩ := displace_deleted hs.tables hdisplace
  have hs' := hs.of_sameSetting hdeleted.setting
  refine (hdeleted.givesNobodyElse svc).trans ?_
  rcases hend with ⟨x, -, hrefresh⟩ | ⟨-, u, -, hu, hintroduce⟩
  · rcases refresh_cases hs'.tables hrefresh with ⟨-, rfl, -⟩ | ⟨-, x', -, hjoined, -⟩
    · exact .refl _ _
    · exact hjoined.givesNobodyElse
  · rw [← hu] at hs' ⊢
    obtain ⟨added, hjoined, -⟩ := introduce_joined hs'.tables hintroduce
    exact hjoined.givesNobodyElse

theorem within_sync_givesNobodyElse (y : Syncer) (svc : Service) (r : Repo) :
    Within (Effect.GivesNobodyElse svc) (y.sync svc r) :=
  onFurnished_sync (.refl svc) fun _ _ _ hs hrun => reconcile_givesNobodyElse hs hrun

theorem takeItem_goesOn (y : Syncer) (svc : Service) (allowed : Bool) {s : Stream} {item : Item}
    (hs : s.world.store.catalog.Furnished)
    (hitem : ∀ e, item = .error e → e.isCredential = false) :
    ∃ t, y.takeItem svc allowed s item = (t, true) ∧ t.defect = s.defect := by
  cases item with
  | error e =>
      have hnone : (SyncError.source svc.displayName e).credentialFailure? = none := by
        rw [← Option.isNone_iff_eq_none, ← Option.not_isSome, Bool.not_eq_true',
          SyncError.isSome_credentialFailure?_source]
        exact hitem e rfl
      unfold takeItem Stream.refuse
      simp only [hnone]
      exact ⟨_, rfl, rfl⟩
  | ok r =>
      by_cases hprivate : (r.isPrivate && !allowed) = true
      · exact ⟨s, if_pos hprivate, rfl⟩
      cases hrun : y.sync svc r s.world with
      | mk result v =>
          rw [takeItem_synced hprivate hrun]
          cases result with
          | ok d => exact ⟨_, rfl, rfl⟩
          | error e =>
              obtain ⟨error, rfl⟩ := sync_error hs hrun
              exact ⟨_, rfl, rfl⟩

theorem takeItem_refused (y : Syncer) (svc : Service) (allowed : Bool) (s : Stream)
    {e : SourceError} (he : e.isCredential = true) :
    ∃ error, error.credentialFailure?.isSome = true ∧ y.takeItem svc allowed s (.error e) =
      ({ s with errors := s.errors ++ [error], seen := [] }, false) := by
  have hsome : (SyncError.source svc.displayName e).credentialFailure?.isSome = true := by
    rw [SyncError.isSome_credentialFailure?_source, he]
  obtain ⟨failure, hfailure⟩ := Option.isSome_iff_exists.mp hsome
  refine ⟨_, hsome, ?_⟩
  unfold takeItem Stream.refuse
  simp only [hfailure]

/-- Wherever the refusal stands among the items, it is what the stream comes to. -/
theorem readAll_refused {s : Stream} (hs : s.world.store.catalog.Furnished)
    (hsound : s.defect = none) (hrefuses : Refuses items)
    (hgoing : ((y.streamReader svc allowed).readAll s items).1.world.isCancelled = false) :
    ∃ t, (y.streamReader svc allowed).readAll s items = (t, .stopped) ∧ t.seen = [] ∧
      t.defect = none ∧ ∃ e ∈ t.errors, e.credentialFailure?.isSome = true := by
  induction items generalizing s with
  | nil =>
      obtain ⟨e, he, -⟩ := hrefuses
      cases he
  | cons item items ih =>
      have hc : ¬(y.streamReader svc allowed).isCancelled s = true :=
        Bool.eq_false_iff.mp (within_readAll (R := Going) (fun r _ => going_sync y svc r) allowed s
          hgoing)
      rw [Reader.readAll_cons hc] at hgoing ⊢
      by_cases hitem : ∃ e, item = .error e ∧ e.isCredential = true
      · obtain ⟨e, rfl, hcredential⟩ := hitem
        obtain ⟨error, herror, htake⟩ := takeItem_refused y svc allowed s hcredential
        have hreceive : (y.streamReader svc allowed).receive s (.error e) = _ := htake
        rw [hreceive]
        exact ⟨_, rfl, rfl, hsound, error, List.mem_append_right _ (List.mem_singleton_self error),
          herror⟩
      · have hmild : ∀ e, item = .error e → e.isCredential = false := fun e he =>
          Bool.eq_false_iff.mpr fun hcredential => hitem ⟨e, he, hcredential⟩
        obtain ⟨t, htake, hdefect⟩ := takeItem_goesOn y svc allowed hs hmild
        have hreceive : (y.streamReader svc allowed).receive s item = (t, true) := htake
        have ht : t.world.store.catalog.Furnished := by
          have hsync : ∀ r, .ok r ∈ [item] → Within (Effect.GivesNobodyElse svc) (y.sync svc r) :=
            fun r _ => within_sync_givesNobodyElse y svc r
          have hkeeps := within_readAll hsync allowed s hs
          rw [Reader.readAll_cons hc, hreceive] at hkeeps
          exact hs.of_sameSetting hkeeps.setting
        rw [hreceive, if_pos rfl] at hgoing ⊢
        refine ih ht (hdefect.trans hsound) ?_ hgoing
        obtain ⟨e, he, hcredential⟩ := hrefuses
        rcases List.mem_cons.mp he with he | he
        · exact absurd ⟨e, he.symm, hcredential⟩ hitem
        · exact ⟨e, he, hcredential⟩

theorem readStream_refused (hs : w.store.catalog.Furnished) (hrefuses : Refuses items)
    {result : Except (Abort SyncError) Stream}
    (h : y.readStream svc allowed items w = (result, w')) (hgoing : w'.isCancelled = false) :
    ∃ s, result = .ok s ∧ s.seen = [] ∧ ∃ e ∈ s.errors, e.credentialFailure?.isSome = true := by
  have hend : ((y.streamReader svc allowed).readAll (Stream.start w) items).1.world = w' :=
    (snd_readStream y svc allowed items w).symm.trans (congrArg Prod.snd h)
  obtain ⟨s, hread, hseen, hsound, herrors⟩ :=
    readAll_refused (s := Stream.start w) hs rfl hrefuses (hend ▸ hgoing)
  rw [readStream_eq, hread] at h
  simp only [hsound] at h
  exact ⟨s, (congrArg Prod.fst h).symm, hseen, herrors⟩

end Syncer

namespace Catalog

open Effect Syncer

/-- The catalog `d` after a pass at the time `now` that took everything from a service: the service
holds nothing, a row is live if and only if somebody holds it, what nobody else held in `c` is a
tombstone, and the visit is on record. -/
structure Emptied (now : Time.Instant) (svc : Service) (c d : Catalog) : Prop where
  nothing : ∀ j, d.members.get? ⟨j, svc.id⟩ = none
  claimed : ∀ j row, d.repos.get? j = some row →
    (row.isLive = true ↔ ∃ s m, d.members.get? ⟨j, s⟩ = some m)
  buried : ∀ j old, c.repos.get? j = some old →
    (∀ s, s ≠ svc.id → c.members.get? ⟨j, s⟩ = none) →
      ∃ row, d.repos.get? j = some row ∧ row.isLive = false
  visited : ∃ row next, d.services.get? svc.id = some row ∧ row.lastSyncAt = some now ∧
    row.nextSyncAt = some next

variable {now : Time.Instant} {c d : Catalog} {svc : Service}

theorem Emptied.of_tidy (hd : d.Tidy) (hnothing : ∀ j, d.members.get? ⟨j, svc.id⟩ = none)
    (hrows : ∀ j old, c.repos.get? j = some old → ∃ row, d.repos.get? j = some row)
    (hothers : ∀ k : MemberKey, k.service ≠ svc.id → c.members.get? k = none →
      d.members.get? k = none)
    (hvisited : ∃ row next, d.services.get? svc.id = some row ∧ row.lastSyncAt = some now ∧
      row.nextSyncAt = some next) : Emptied now svc c d := by
  refine ⟨hnothing, hd.claimed, fun j old hold hfree => ?_, hvisited⟩
  obtain ⟨row, hrow⟩ := hrows j old hold
  refine ⟨row, hrow, Bool.eq_false_iff.mpr fun hlive => ?_⟩
  obtain ⟨s, m, hm⟩ := (hd.claimed j row hrow).mp hlive
  by_cases hs : s = svc.id
  · rw [hs, hnothing j] at hm
    cases hm
  · rw [hothers ⟨j, s⟩ hs (hfree s hs)] at hm
    cases hm

end Catalog

namespace Syncer

open Effect Catalog

variable {y : Syncer} {svc : Service} {items : List Item} {least : Duration} {w w' : World}
  {r : Except (Abort SyncError) Unit}

theorem visited_of_closing {s : Stream} (hs : w.store.catalog.Furnished)
    (hsvc : w.store.catalog.Holds svc) {es : List SyncError}
    (h : y.closing svc least s w = (.error (.failed (.multi es)), w')) :
    ∃ row next, w'.store.catalog.services.get? svc.id = some row ∧
      row.lastSyncAt = some y.now ∧ row.nextSyncAt = some next := by
  cases closing_steps h with
  | unswept hsweep => exact (fails_sweepUnseen y svc s.seen w _ w' hsweep).elim
  | unrecorded hsweep hvisit =>
      obtain ⟨ids, hswept⟩ := sweepUnseen_ok hs hsweep
      rcases recordVisit_error (hs.of_sameSetting hswept.setting)
        (hsvc.of_sameSetting hswept.setting) hvisit with ⟨-, he, -⟩ | ⟨-, hstore⟩
      · cases he
      · exact hstore.elim
  | @reported _ _ u _ _ _ hvisit hend =>
      have hreported : Reported y svc least s.errors (.error (.failed (.multi es))) ∧ w' = u :=
        reported_bundle hend
      obtain ⟨-, rfl⟩ := hreported
      obtain ⟨id, row, next, hid, hrow, hlast, -, hnext⟩ := recordVisit_row hvisit
      rw [hid (Int.ne_of_gt (hsvc.range hs).1)] at hrow
      exact ⟨row, next, hrow, hlast, hnext⟩

theorem wrote_stream (y : Syncer) {svc : Service} (hid : svc.id ≠ 0) (least : Duration) :
    Within (Wrote fun _ => True) (y.stream svc least) :=
  admits_stream (fun _ => True) (wrote_publish y) (fun _ _ _ _ => trivial) fun _ hsame =>
    on_store (Store.wrote_putService (hsame ▸ hid))

theorem wrote_batch (y : Syncer) {svc : Service} (hid : svc.id ≠ 0) (least : Duration) :
    Within (Wrote fun _ => True) (y.batch svc least) :=
  admits_batch (fun _ => True) (wrote_publish y) (fun _ _ _ _ => trivial) fun _ hsame =>
    on_store (Store.wrote_putService (hsame ▸ hid))

/-- A streaming pass whose credentials are refused takes everything from the service. -/
theorem stream_refused (hc : w.store.catalog.Tidy) (hsvc : w.store.catalog.Holds svc)
    (hsource : y.sourceOf svc = .ok items) (hlisted : ∀ x, .ok x ∈ items → x.ListedBy svc)
    (hrefuses : Refuses items) (hrun : y.stream svc least w = (r, w'))
    (hgoing : w'.isCancelled = false) :
    (w.faults ≠ [] ∧ ∃ context e, r = .error (.failed (.store context e))) ∨
      (∃ modified errored, y.now.add? (Resync.afterStream y.now svc.lastSyncAt least modified
        errored) = none ∧ r = .error (.defect .timeAfterEnd)) ∨
      (∃ e, r = .error (.failed e) ∧ e.credentialFailure?.isSome = true) ∧
        Emptied y.now svc w.store.catalog w'.store.catalog := by
  have hid : svc.id ≠ 0 := Int.ne_of_gt (hsvc.range hc.furnished).1
  have htends : Within (Tends svc) (y.stream svc least) := by
    refine tends_stream fun items' hitems => ?_
    cases hsource.symm.trans hitems
    exact hlisted
  have htidy : w'.store.catalog.Tidy := (htends.of_run hrun).tidy hc hsvc
  have hrows : ∀ j old, w.store.catalog.repos.get? j = some old → _ := fun j old hold =>
    rows_of_writes hc.toRooted ((wrote_stream y hid least).of_run hrun).catalog hold
  rcases stream_steps hc.furnished hsource hrun hgoing with
    hfaulty | ⟨v, answer, u, -, hsame, hread, hu, hcloses, hfaulty⟩
  · exact .inl hfaulty
  have hv : v.store.catalog.Furnished := by
    rw [hsame]
    exact hc.furnished
  obtain ⟨s, rfl, hseen, error, herror, hcredential⟩ := readStream_refused hv hrefuses hread hu
  have hgives := (within_readStream (fun r _ => within_sync_givesNobodyElse y svc r)
    (y.sees w.store.catalog svc)).of_run hread hv
  rw [hsame] at hgives
  have hfurnished := hc.furnished.of_sameSetting hgives.setting
  have hholds := hsvc.of_sameSetting hgives.setting
  have hserved : Served u.store.catalog svc [] s.seen := by
    rw [hseen]
    exact ⟨fun x hx => (by cases hx), fun i hi => (by cases hi)⟩
  have hclosing := hcloses s rfl
  rcases closing_cases hfurnished hholds hserved hclosing with
    ⟨e, rfl, hstruck⟩ | ⟨hserves, hothers, hreported⟩
  · obtain ⟨hfaults, context, error, rfl⟩ := hfaulty e hstruck
    exact .inl ⟨hfaults, context, error, rfl⟩
  cases hreported with
  | well hnone =>
      rw [hnone] at herror
      cases herror
  | late modified hlate => exact .inr (.inl ⟨modified, _, hlate, rfl⟩)
  | bundled _ =>
      refine .inr (.inr ⟨⟨_, rfl, SyncError.isSome_credentialFailure?_multi herror hcredential⟩,
        .of_tidy htidy (fun j => ?_) hrows (fun k hk hnone => ?_)
          (visited_of_closing hfurnished hholds hclosing)⟩)
      · rw [Option.eq_none_iff_forall_ne_some]
        intro m hm
        obtain ⟨x, hx, -⟩ := hserves.only j m hm
        cases hx
      · exact (hothers k hk).trans (hgives.members k hk hnone)

theorem applied_nothing (hw : w.Calm) (hc : w.store.catalog.Rooted)
    (hsvc : w.store.catalog.Holds svc) (y : Syncer) (least : Duration) :
    (∃ d v, y.now.add? (Resync.afterBatch y.now svc.lastSyncAt least d) = none ∧
      transaction .ofStore (y.applyBatch svc [] least) w = (.error (.defect .timeAfterEnd), v)) ∨
    ∃ d v, transaction .ofStore (y.applyBatch svc [] least) w = (.ok d, v) := by
  have hnowin : ¬Obstructed w.store.catalog svc [] := by
    rintro ⟨x, j, row, hobstacle⟩
    cases hobstacle.winner.leads.mem
  obtain ⟨d, t, happly, ht, hst, hsvct, -⟩ := run_applyBatch
    (w := { w with store := opened w.store }) ⟨hw.faults, hw.going⟩ hc hsvc
    (fun x hx => (by cases hx)) hnowin y least
  cases hnext : y.now.add? (Resync.afterBatch y.now svc.lastSyncAt least d) with
  | none =>
      have hlate : y.conclude svc least d t = (.error (.defect .timeAfterEnd), t) := by
        unfold conclude
        refine bind_of_error ?_
        unfold recordVisit
        rw [hnext]
        rfl
      exact .inl ⟨d, _, hnext, run_transaction_defect hw.faults (happly.trans hlate)⟩
  | some next =>
      obtain ⟨d', t', hdone⟩ := (conclude_ok_iff ht hst hsvct least d).mpr
        (Option.isSome_iff_exists.mpr ⟨next, hnext⟩)
      have ht' : t'.Calm := (calmly_applyBatch y svc [] least).of_run (happly.trans hdone)
        ⟨hw.faults, hw.going⟩
      exact .inr ⟨d', _, run_transaction_ok hw.faults (happly.trans hdone) ht'.faults⟩

/-- As long as all is calm, a batch pass whose credentials are refused comes to its end, unless a
quota refuses it or the time of the next visit cannot be told. -/
theorem batch_refused_calm (hw : w.Calm) (hc : w.store.catalog.Tidy)
    (hsvc : w.store.catalog.Holds svc) (hsource : y.sourceOf svc = .ok items)
    (hrefuses : Refuses items) (hrun : y.batch svc least w = (r, w')) :
    (∃ q, r = .error (.failed (.quota q))) ∨
      (∃ d, y.now.add? (Resync.afterBatch y.now svc.lastSyncAt least d) = none ∧
        r = .error (.defect .timeAfterEnd)) ∨ hasCommitted r = true := by
  rw [batch_eq] at hrun
  rcases bind_cases hrun with ⟨e, hread, rfl⟩ | ⟨listing, v, hread, hrun⟩
  · have hquota := reading_error hw hc.furnished hsource hread
    cases e with
    | defect d => exact hquota.elim
    | failed e =>
        cases e with
        | quota q => exact .inl ⟨q, rfl⟩
        | _ => exact hquota.elim
  obtain ⟨items', hitems, rfl⟩ := reading_ok hread
  cases hsource.symm.trans hitems
  have hcalmly : Within Calmly (y.reading svc) := asks_reading fun _ _ _ _ =>
    admits_insertIfNew (p := fun _ => True) (calmly_publish y) trivial
  have hv := hcalmly.of_run hread hw
  obtain ⟨hcv, hsetting⟩ := ((within_reading y svc).of_run hread).tidy hc
  have hsvc' := hsvc.of_sameSetting hsetting
  have hjudged : (Effect.ofExcept (judge svc (.ofItems items)) : Pass _) v =
      (.ok ([], some (.gravest (Listing.ofItems items).errors)), v) := by
    rw [judge_of_refused svc hrefuses]
    rfl
  rw [bind_of_ok hjudged] at hrun
  simp only [] at hrun
  obtain ⟨allowed, u, hallowed⟩ := allowsPrivate_total hv hcv.furnished y svc
  have hu := (asks_allowsPrivate (R := Calmly) y svc).of_run hallowed hv
  have hsame : u.store = v.store := (asks_allowsPrivate (R := SameStore) y svc).of_run hallowed
  rw [← hsame] at hcv hsvc'
  have hempty : (if allowed = true then ([] : List Repo)
      else ([] : List Repo).filter fun r => !r.isPrivate) = [] := by
    split <;> rfl
  rw [bind_of_ok hallowed, hempty] at hrun
  rcases applied_nothing hu hcv.toRooted hsvc' y least with ⟨d, t, hlate, happlied⟩ | ⟨d, t, happlied⟩
  · rw [bind_of_error happlied] at hrun
    cases hrun
    exact .inr (.inl ⟨d, hlate, rfl⟩)
  · rw [bind_of_ok happlied] at hrun
    have hreport : y.report d (some (.gravest (Listing.ofItems items).errors)) t = (r, w') := hrun
    obtain ⟨rfl, -⟩ := run_report hreport
    exact .inr (.inr (hasCommitted_concluded (judge_of_refused svc hrefuses)))

/-- A batch pass that commits after its credentials were refused takes everything from the service
and leaves to others what they have. -/
theorem emptied_of_committed {d : Diff} (hc : w.store.catalog.Tidy)
    (hsvc : w.store.catalog.Holds svc) (hsource : y.sourceOf svc = .ok items)
    (hlisted : ∀ x, .ok x ∈ items → x.ListedBy svc) (hrefuses : Refuses items)
    (hrun : y.batch svc least w = (r, w'))
    (hcommitted : Committed y svc least (y.reading svc w).2 r d w') :
    r = .error (.failed (.gravest (Listing.ofItems items).errors)) ∧
      Emptied y.now svc w.store.catalog w'.store.catalog ∧
      ∀ k : MemberKey, k.service ≠ svc.id →
        w'.store.catalog.members.get? k = w.store.catalog.members.get? k := by
  have hid : svc.id ≠ 0 := Int.ne_of_gt (hsvc.range hc.furnished).1
  have htends : Within (Tends svc) (y.batch svc least) := by
    refine tends_batch fun items' hitems => ?_
    cases hsource.symm.trans hitems
    exact hlisted
  have htidy : w'.store.catalog.Tidy := (htends.of_run hrun).tidy hc hsvc
  have hrows : ∀ j old, w.store.catalog.repos.get? j = some old → _ := fun j old hold =>
    rows_of_writes hc.toRooted ((wrote_batch y hid least).of_run hrun).catalog hold
  obtain ⟨id, row, next, hown, hrow, hlast, -, hnext⟩ := hcommitted.visited
  rw [hown hid] at hrow
  obtain ⟨items', sourced, failure, allowed, u, u', hitems, hjudge, hr, -, hu, hbody, hcatalog⟩ :=
    hcommitted.written
  cases hsource.symm.trans hitems
  cases (judge_of_refused svc hrefuses).symm.trans hjudge
  have hempty : (if allowed = true then ([] : List Repo)
      else ([] : List Repo).filter fun r => !r.isPrivate) = [] := by
    split <;> rfl
  rw [hempty] at hbody
  -- The batch starts from what early insertions have left.
  have hfilled := fills_reading hsource w.store.catalog w hc.furnished
  obtain ⟨hcu, -⟩ := (within_reading y svc w).tidy hc
  rw [← hu] at hcu hfilled
  have hsvc' := hsvc.of_sameSetting hfilled.setting
  have hnone : ∀ x ∈ ([] : List Repo), x.ListedBy svc := fun x hx => (by cases hx)
  have hbatched := batched hcu.toRooted hsvc' (feasible_plan hnone)
    (applyBatch_ok hcu.furnished hid hbody)
  have hothers : ∀ k : MemberKey, k.service ≠ svc.id →
      w'.store.catalog.members.get? k = w.store.catalog.members.get? k := by
    intro k hk
    rw [hcatalog, hbatched.spares hcu.furnished hk, hfilled.others k hk]
  refine ⟨hr, .of_tidy htidy (fun j => ?_) hrows (fun k hk hnone => (hothers k hk).trans hnone)
    ⟨row, next, hrow, hlast, hnext⟩, hothers⟩
  rw [hcatalog]
  exact hbatched.emptied hcu j

end Syncer

namespace Catalog

open Effect Syncer

/-- After a pass that nobody stopped and no quota refused, a service whose credentials were refused
holds nothing, and of what others hold a batch pass changes nothing; the failure is reported. Only
the store may keep the pass from it, if it has faults of its own, or a next visit whose time cannot
be told. -/
theorem refused_credentials_empty {y : Syncer} {svc : Service} {least : Duration}
    {items : List Item} {w : World} (hreach : Reachable Repo.ListedBy w.store.catalog)
    (hsvc : w.store.catalog.Holds svc) (hsource : y.sourceOf svc = .ok items)
    (hlisted : ∀ x, .ok x ∈ items → x.ListedBy svc) (hrefuses : Refuses items) :
    (∀ r w', y.batch svc least w = (r, w') → w'.isCancelled = false →
      (∀ q, r ≠ .error (.failed (.quota q))) →
        (w.faults ≠ [] ∧ hasCommitted r = false) ∨
        (∃ d, y.now.add? (Resync.afterBatch y.now svc.lastSyncAt least d) = none ∧
          r = .error (.defect .timeAfterEnd)) ∨
        r = .error (.failed (.gravest (Listing.ofItems items).errors)) ∧
          (SyncError.gravest (Listing.ofItems items).errors).credentialFailure?.isSome = true ∧
          Emptied y.now svc w.store.catalog w'.store.catalog ∧
          ∀ j s, s ≠ svc.id →
            w'.store.catalog.members.get? ⟨j, s⟩ = w.store.catalog.members.get? ⟨j, s⟩ ∧
            ∀ m, w.store.catalog.members.get? ⟨j, s⟩ = some m →
              ∃ row, w'.store.catalog.repos.get? j = some row ∧ row.isLive = true) ∧
    ∀ r w', y.stream svc least w = (r, w') → w'.isCancelled = false →
      (w.faults ≠ [] ∧ ∃ context e, r = .error (.failed (.store context e))) ∨
      (∃ modified errored, y.now.add? (Resync.afterStream y.now svc.lastSyncAt least modified
        errored) = none ∧ r = .error (.defect .timeAfterEnd)) ∨
      (∃ e, r = .error (.failed e) ∧ e.credentialFailure?.isSome = true) ∧
        Emptied y.now svc w.store.catalog w'.store.catalog := by
  have hc := hreach.tidy
  refine ⟨fun r w' hrun hgoing hquota => ?_, fun r w' hrun hgoing =>
    stream_refused hc hsvc hsource hlisted hrefuses hrun hgoing⟩
  rcases batch_cases hrun with ⟨hno, -⟩ | ⟨-, d, hcommitted⟩
  · by_cases hfaults : w.faults = []
    · have hgo : Within Going (y.batch svc least) :=
        admits_batch (fun _ => True) (going_publish y) (fun _ _ _ _ => trivial) fun _ _ =>
          outward_store _ _ _
      have hw : w.Calm := ⟨hfaults, hgo.of_run hrun hgoing⟩
      rcases batch_refused_calm hw hc hsvc hsource hrefuses hrun with ⟨q, hq⟩ | hlate | hyes
      · exact absurd hq (hquota q)
      · exact .inr (.inl hlate)
      · cases hno.symm.trans hyes
    · exact .inl ⟨hfaults, hno⟩
  · obtain ⟨hr, hemptied, hothers⟩ :=
      emptied_of_committed hc hsvc hsource hlisted hrefuses hrun hcommitted
    refine .inr (.inr ⟨hr, SyncError.isSome_credentialFailure?_gravest _, hemptied,
      fun j s hs => ⟨hothers ⟨j, s⟩ hs, fun m hm => ?_⟩⟩)
    rw [← hothers ⟨j, s⟩ hs] at hm
    obtain ⟨row, hrow⟩ := repo_of_member hm
    exact ⟨row, hrow, (hemptied.claimed j row hrow).mpr ⟨s, m, hm⟩⟩

end Catalog

namespace Sample

/-- The host holds two repositories, and its mirror holds one of them too. -/
def shared : World :=
  ((syncer []).perform (.sync hub (entry "2" "beta")) ((syncer []).perform
    (.sync hub (entry "1" "alpha")) ((syncer []).perform (.sync mirror (copy "1" "alpha"))
      mirrored).2).2).2

theorem shared_reached : Catalog.Reachable Repo.ListedBy shared.store.catalog ∧
    shared.store.catalog.Holds hub := by
  have hstart : Catalog.Reachable Repo.ListedBy mirrored.store.catalog :=
    .start rfl rfl furnished_mirrored
  have hcopied : Catalog.Reachable Repo.ListedBy _ :=
    .pass (syncer []) (.sync mirror (copy "1" "alpha")) hstart (by exact ⟨rfl, rfl, "alpha", rfl⟩)
  have hfirst : Catalog.Reachable Repo.ListedBy _ :=
    .pass (syncer []) (.sync hub (entry "1" "alpha")) hcopied (entry_listedBy "1" "alpha")
  have hsvc := (holds_mirrored.synced hstart.tidy (syncer []) mirror rfl).synced hcopied.tidy
    (syncer []) hub (entry_listedBy "1" "alpha").live
  exact ⟨.pass (syncer []) (.sync hub (entry "2" "beta")) hfirst (entry_listedBy "2" "beta"),
    hsvc.synced hfirst.tidy (syncer []) hub (entry_listedBy "2" "beta").live⟩

/-- What the host sends while its credentials are being refused. -/
def refusal : List Item :=
  [.ok (entry "3" "gamma"), .error (.network "timeout"), .error (.http 403 "rate limit"),
    .ok (entry "1" "alpha")]

end Sample

namespace Catalog

open Effect Syncer

/-- The credentials of the host are refused halfway through a listing, while its mirror holds a copy
of one of the two repositories that the host has. -/
theorem refused_credentials_empty_shared :
    let y := Sample.syncer Sample.refusal
    let c := Sample.shared.store.catalog
    (∃ w', y.batch Sample.hub ⟨0⟩ Sample.shared = (.error (.failed .forbidden), w') ∧
      Emptied y.now Sample.hub c w'.store.catalog ∧
      ∃ m row, w'.store.catalog.members.get? ⟨1, 2⟩ = some m ∧
        w'.store.catalog.repos.get? 1 = some row ∧ row.isLive = true) ∧
    ∃ e w', y.stream Sample.hub ⟨0⟩ Sample.shared = (.error (.failed e), w') ∧
      e.credentialFailure?.isSome = true ∧ Emptied y.now Sample.hub c w'.store.catalog := by
  intro y c
  have hlisted : ∀ x, .ok x ∈ Sample.refusal → x.ListedBy Sample.hub := by
    intro x hx
    obtain rfl | rfl : x = Sample.entry "3" "gamma" ∨ x = Sample.entry "1" "alpha" := by
      simpa [Sample.refusal] using hx
    · exact Sample.entry_listedBy "3" "gamma"
    · exact Sample.entry_listedBy "1" "alpha"
  have hrefuses : Refuses Sample.refusal :=
    ⟨.http 403 "rate limit", by simp [Sample.refusal], rfl⟩
  have hfaults : Sample.shared.faults = [] := by decide
  obtain ⟨hreach, hsvc⟩ := Sample.shared_reached
  obtain ⟨hbatch, hstream⟩ :=
    refused_credentials_empty (y := y) hreach hsvc rfl hlisted hrefuses
  constructor
  · have hfailed : (y.batch Sample.hub ⟨0⟩ Sample.shared).1.isOk = false ∧ hasCommitted
        (y.batch Sample.hub ⟨0⟩ Sample.shared).1 = true := by decide +kernel
    have hgoing : (y.batch Sample.hub ⟨0⟩ Sample.shared).2.isCancelled = false := by
      decide +kernel
    have hmember : (c.members.get? ⟨1, 2⟩).isSome = true := by decide
    obtain ⟨m, hm⟩ := Option.isSome_iff_exists.mp hmember
    cases hrun : y.batch Sample.hub ⟨0⟩ Sample.shared with
    | mk r w' =>
        rw [hrun] at hfailed hgoing
        rcases hbatch r w' hrun hgoing (by rintro q rfl; cases hfailed.2) with
          ⟨hfaulty, -⟩ | ⟨d, -, rfl⟩ | ⟨rfl, -, hemptied, hothers⟩
        · exact absurd hfaults hfaulty
        · cases hfailed.2
        · obtain ⟨hsame, hlive⟩ := hothers 1 2 (by decide)
          obtain ⟨row, hrow⟩ := hlive m hm
          exact ⟨w', rfl, hemptied, m, row, hsame.trans hm, hrow⟩
  · have hgoing : (y.stream Sample.hub ⟨0⟩ Sample.shared).2.isCancelled = false := by
      decide +kernel
    have hon_time : ∀ modified errored, (y.now.add? (Resync.afterStream y.now
        Sample.hub.lastSyncAt ⟨0⟩ modified errored)).isSome = true := by decide
    cases hrun : y.stream Sample.hub ⟨0⟩ Sample.shared with
    | mk r w' =>
        rw [hrun] at hgoing
        rcases hstream r w' hrun hgoing with
          ⟨hfaulty, -⟩ | ⟨modified, errored, hlate, -⟩ | ⟨⟨e, rfl, he⟩, hemptied⟩
        · exact absurd hfaults hfaulty
        · have hsome := hon_time modified errored
          rw [hlate] at hsome
          cases hsome
        · exact ⟨e, w', rfl, he, hemptied⟩

end Catalog

end RepoCatalog
