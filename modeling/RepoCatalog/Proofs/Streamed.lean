import RepoCatalog.Proofs.AllOrNothing
import RepoCatalog.Proofs.Names
import RepoCatalog.Proofs.Success

/-!
# Streaming passes converge

After a streaming pass that nobody stopped, a service holds exactly what was brought up to date
without a failure, each repository in one live row, and the final sweep has taken nothing from other
services. The pass reports every item that failed.

Items are taken one after the other. What carries the proof is what holds in between: each
repository that was brought up to date stands in a row that was seen, and of the rows that were seen
the service holds no others.
-/
namespace RepoCatalog

open Step
open Time (Duration)

/-- A repository as a stream may bring it up, whatever its id: live, claimed by the service alone,
with an identity and with a name in basic letters. -/
structure Repo.Presentable (svc : Service) (r : Repo) : Prop where
  live : r.deletedAt = none
  claims : ∃ url, r.claims = .solo svc.urn url
  spec : r.spec.isEmpty = false
  name : Text.IsAscii r.name

/-- A repository as any stream may bring it up: like a presentable one, but for its name, of which
only the full lower case and the lower case of basic letters must be the same. -/
structure Repo.Streamable (svc : Service) (r : Repo) : Prop where
  live : r.deletedAt = none
  claims : ∃ url, r.claims = .solo svc.urn url
  spec : r.spec.isEmpty = false
  name : r.lowerName = Text.Ascii.lower r.name

theorem Repo.Presentable.streamable {svc : Service} {r : Repo} (h : r.Presentable svc) :
    r.Streamable svc :=
  ⟨h.live, h.claims, h.spec, Text.lowerCase_of_ascii h.name⟩

/-- Neither the identities are the same nor, but for case, the names. -/
def Repo.Apart (a b : Repo) : Prop :=
  a.spec ≠ b.spec ∧ a.lowerName ≠ b.lowerName

/-- Of repositories that are brought up one after the other those that keep their names: no later
one has the same name, but for case. -/
def Repo.lasting : List Repo → List Repo
  | [] => []
  | r :: rs => if rs.any fun x => x.lowerName == r.lowerName then lasting rs else r :: lasting rs

theorem Repo.mem_lasting {x : Repo} {rs : List Repo} : x ∈ Repo.lasting rs ↔
    ∃ before after, rs = before ++ x :: after ∧ ∀ z ∈ after, z.lowerName ≠ x.lowerName := by
  induction rs with
  | nil => simp [lasting]
  | cons r rs ih =>
      have hlater : (∃ before after, r :: rs = before ++ x :: after ∧
          ∀ z ∈ after, z.lowerName ≠ x.lowerName) ↔
          (r = x ∧ ∀ z ∈ rs, z.lowerName ≠ x.lowerName) ∨ x ∈ lasting rs := by
        rw [ih]
        constructor
        · rintro ⟨before, after, hsplit, hlast⟩
          cases before with
          | nil =>
              cases hsplit
              exact .inl ⟨rfl, hlast⟩
          | cons b before =>
              cases hsplit
              exact .inr ⟨before, after, rfl, hlast⟩
        · rintro (⟨rfl, hlast⟩ | ⟨before, after, rfl, hlast⟩)
          · exact ⟨[], rs, rfl, hlast⟩
          · exact ⟨r :: before, after, rfl, hlast⟩
      rw [hlater, lasting]
      split
      · rename_i htaken
        refine (or_iff_right ?_).symm
        rintro ⟨rfl, hlast⟩
        obtain ⟨z, hz, hname⟩ := List.any_eq_true.mp htaken
        exact hlast z hz (beq_iff_eq.mp hname)
      · rename_i hfree
        rw [List.mem_cons]
        refine or_congr_left ⟨?_, fun h => h.1.symm⟩
        rintro rfl
        refine ⟨rfl, fun z hz hname => hfree ?_⟩
        exact List.any_eq_true.mpr ⟨z, hz, beq_iff_eq.mpr hname⟩

theorem Repo.lasting_subset {x : Repo} {rs : List Repo} (h : x ∈ Repo.lasting rs) : x ∈ rs := by
  obtain ⟨before, after, rfl, -⟩ := Repo.mem_lasting.mp h
  exact List.mem_append_right _ List.mem_cons_self

theorem Repo.mem_lasting_append {x r : Repo} {rs : List Repo} : x ∈ Repo.lasting (rs ++ [r]) ↔
    x = r ∨ x ∈ Repo.lasting rs ∧ x.lowerName ≠ r.lowerName := by
  simp only [Repo.mem_lasting]
  constructor
  · rintro ⟨before, after, hsplit, hlast⟩
    rcases List.eq_nil_or_concat after with rfl | ⟨after, z, rfl⟩
    · exact .inl (List.append_inj' hsplit rfl |>.2 |> List.singleton_inj.mp).symm
    · have hsame : rs ++ [r] = (before ++ x :: after) ++ [z] := by
        rw [hsplit, List.append_assoc, List.cons_append, List.concat_eq_append]
      obtain ⟨rfl, hz⟩ := List.append_inj' hsame rfl
      cases hz
      rw [List.concat_eq_append] at hlast
      exact .inr ⟨⟨before, after, rfl, fun z hz => hlast z (List.mem_append_left _ hz)⟩,
        (hlast r (List.mem_append_right _ (List.mem_singleton_self r))).symm⟩
  · rintro (rfl | ⟨⟨before, after, rfl, hlast⟩, hname⟩)
    · exact ⟨rs, [], rfl, fun z hz => (by cases hz)⟩
    · refine ⟨before, after ++ [r], by rw [List.append_assoc, List.cons_append], fun z hz => ?_⟩
      rcases List.mem_append.mp hz with hz | hz
      · exact hlast z hz
      · cases List.mem_singleton.mp hz
        exact hname.symm

theorem Repo.lasting_of_apart {rs : List Repo} (h : rs.Pairwise Repo.Apart) :
    Repo.lasting rs = rs := by
  induction rs with
  | nil => rfl
  | cons r rs ih =>
      obtain ⟨hr, hrs⟩ := List.pairwise_cons.mp h
      have hfree : ¬(rs.any fun x => x.lowerName == r.lowerName) = true := by
        intro htaken
        obtain ⟨z, hz, hname⟩ := List.any_eq_true.mp htaken
        exact (hr z hz).2 (beq_iff_eq.mp hname).symm
      rw [lasting, if_neg hfree, ih hrs]

namespace Catalog

variable {c d : Catalog} {svc : Service} {r x : Repo} {kept : List Repo} {seen ids out : List Int}
  {i j : Int}

theorem Stands.unique (h : c.Stands svc x i) (h' : c.Stands svc x j) : i = j := by
  obtain ⟨a, ha, -, -, hspec⟩ := h.row
  obtain ⟨b, hb, -, -, hspec'⟩ := h'.row
  exact spec_inj ha hb (hspec.trans hspec'.symm)

theorem Stands.nameKey (h : c.Stands svc x i) (hx : x.lowerName = Text.Ascii.lower x.name)
    {row : RepoRow} (hrow : c.repos.get? i = some row) : row.nameKey = x.lowerName := by
  obtain ⟨row', hrow', -, hname, -⟩ := h.row
  cases hrow.symm.trans hrow'
  unfold RepoRow.nameKey
  rw [hname, hx]

theorem Stands.not_meets (h : c.Stands svc x i) (hx : x.lowerName = Text.Ascii.lower x.name)
    (hapart : x.Apart r) {row : RepoRow} (hrow : c.repos.get? i = some row) :
    meets r row = false := by
  obtain ⟨row', hrow', -, -, hspec⟩ := h.row
  cases hrow.symm.trans hrow'
  refine meets_eq_false ?_ ?_
  · rw [h.nameKey hx hrow]
    exact hapart.2
  · rw [hspec]
    exact hapart.1

theorem Seated.stands_elsewhere (h : Seated c svc r j out d) (hx : c.Stands svc x i) (hne : i ≠ j)
    (hout : i ∉ out) : d.Stands svc x i :=
  hx.of_same (h.rows i hne hout) (h.members _ (fun hk => hne (congrArg MemberKey.repo hk)) hout)

/-- Each of some repositories stands in a row that was seen, and of the rows that were seen the
service holds no others. -/
structure Served (c : Catalog) (svc : Service) (kept : List Repo) (seen : List Int) : Prop where
  stands : ∀ x ∈ kept, ∃ i ∈ seen, c.Stands svc x i
  only : ∀ i ∈ seen, ∀ m, c.members.get? ⟨i, svc.id⟩ = some m → ∃ x ∈ kept, c.Stands svc x i

theorem Served.seated (h : Served c svc (Repo.lasting kept) seen) (hseated : Seated c svc r j out d)
    (hr : r.lowerName = Text.Ascii.lower r.name)
    (hkept : ∀ x ∈ kept, x.lowerName = Text.Ascii.lower x.name ∧ x.spec ≠ r.spec) (hj : j ∈ ids)
    (hids : ∀ i ∈ ids, i = j ∨ i ∈ out) :
    Served d svc (Repo.lasting (kept ++ [r])) (ids ++ seen) := by
  constructor
  · intro x hx
    rcases Repo.mem_lasting_append.mp hx with rfl | ⟨hx, hname⟩
    · exact ⟨j, List.mem_append_left _ hj, hseated.stands⟩
    obtain ⟨hcase, hspec⟩ := hkept x (Repo.lasting_subset hx)
    obtain ⟨i, hi, hstands⟩ := h.stands x hx
    obtain ⟨row, hrow, -⟩ := hstands.row
    have hmeets := hstands.not_meets hcase ⟨hspec, hname⟩ hrow
    have hne : i ≠ j := by
      rintro rfl
      cases hmeets.symm.trans (hseated.origin row hrow)
    have hstays : i ∉ out := by
      intro hout
      obtain ⟨-, old, hold, hlive, hkey, -⟩ := hseated.room i hout
      cases hrow.symm.trans hold
      cases hmeets.symm.trans (meets_iff.mpr (.inl ⟨hlive, hkey⟩))
    exact ⟨i, List.mem_append_right _ hi, hseated.stands_elsewhere hstands hne hstays⟩
  · intro i hi m hm
    by_cases hne : i = j
    · exact ⟨r, Repo.mem_lasting_append.mpr (.inl rfl), hne ▸ hseated.stands⟩
    by_cases hout : i ∈ out
    · rw [(hseated.gone i hout).2] at hm
      cases hm
    have hseen : i ∈ seen :=
      (List.mem_append.mp hi).resolve_left fun hnew => (hids i hnew).elim hne hout
    rw [hseated.members _ (fun hk => hne (congrArg MemberKey.repo hk)) hout] at hm
    obtain ⟨x, hx, hstands⟩ := h.only i hseen m hm
    have hstands' := hseated.stands_elsewhere hstands hne hout
    refine ⟨x, Repo.mem_lasting_append.mpr (.inr ⟨hx, fun hname => hne ?_⟩), hstands'⟩
    -- Two live rows do not share a name, so nobody else keeps the name of the new one.
    obtain ⟨a, ha, halive, -⟩ := hstands'.row
    obtain ⟨b, hb, hblive, -⟩ := hseated.stands.row
    refine nameKey_inj ha hb halive hblive ?_
    rw [hstands'.nameKey (hkept x (Repo.lasting_subset hx)).1 ha, hseated.stands.nameKey hr hb]
    exact hname

/-- What a service holds: for each of some repositories exactly one row, which is live and says what
the repository says, and no others. -/
structure Serves (c : Catalog) (svc : Service) (kept : List Repo) : Prop where
  one : ∀ x ∈ kept, ∃ j, c.Stands svc x j ∧ ∀ i, c.Stands svc x i → i = j
  only : ∀ j m, c.members.get? ⟨j, svc.id⟩ = some m → ∃ x ∈ kept, c.Stands svc x j

theorem Served.swept (h : Served c svc kept seen) (hswept : Swept c svc seen ids d) :
    Serves d svc kept := by
  have hstays : ∀ x i, i ∈ seen → c.Stands svc x i → d.Stands svc x i := by
    intro x i hi hstands
    have hnot : i ∉ ids := fun hids => ((hswept.taken i).mp hids).2 hi
    obtain ⟨now, hrepos⟩ := hswept.repos
    refine hstands.of_same ?_ ?_
    · rw [hrepos]
      simp only [hnot, false_and, if_false, Option.map_id']
    · rw [hswept.members, if_neg fun hk => hnot hk.2]
  constructor
  · intro x hx
    obtain ⟨i, hi, hstands⟩ := h.stands x hx
    exact ⟨i, hstays x i hi hstands, fun _ h' => h'.unique (hstays x i hi hstands)⟩
  · intro j m hm
    rw [hswept.members] at hm
    split at hm
    · cases hm
    · rename_i hkey
      have hseen : j ∈ seen := by
        by_contra hunseen
        exact hkey ⟨rfl, (hswept.taken j).mpr ⟨⟨m, hm⟩, hunseen⟩⟩
      obtain ⟨x, hx, hstands⟩ := h.only j hseen m hm
      exact ⟨x, hx, hstays x j hseen hstands⟩

theorem Serves.visited (h : Serves c svc kept) (hvisited : Visited c d) : Serves d svc kept := by
  have hsame : ∀ x j, d.Stands svc x j ↔ c.Stands svc x j := by
    intro x j
    unfold Stands
    rw [hvisited.repos, hvisited.members]
  constructor
  · simp only [hsame]
    exact h.one
  · simp only [hsame, hvisited.members]
    exact h.only

end Catalog

namespace Effect

/-- Who was told to stop stays told. -/
def Going (w w' : World) : Prop :=
  w'.isCancelled = false → w.isCancelled = false

instance : Outward Going where
  refl _ h := h
  trans h h' hu := h (h' hu)
  store _ _ h := h
  call operation step := by
    intro w
    unfold call ofStore Going
    cases Fault.strike operation w.faults with
    | mk faults struck =>
        cases struck with
        | none =>
            simp only []
            split <;> exact id
        | some fault =>
            simp only []
            split
            · exact id
            · split <;> exact fun h => (by cases h)

end Effect

namespace Abort

/-- Whether this is a bare failure of the store. -/
def IsStore : Abort SyncError → Prop
  | .failed (.store _ _) => True
  | _ => False

theorem IsStore.cases {e : Abort SyncError} (h : e.IsStore) :
    ∃ context error, e = .failed (.store context error) := by
  cases e with
  | defect d => exact h.elim
  | failed e =>
      cases e with
      | store context error => exact ⟨context, error, rfl⟩
      | _ => exact h.elim

end Abort

namespace Syncer

open Effect Catalog

variable {y : Syncer} {svc : Service} {r : Repo} {allowed : Bool} {items : List Item}
  {least : Duration} {w w' : World}

/-- The error of the store that ends a step, where the store has faults or the step was stopped. -/
def Struck (w : World) (e : Abort SyncError) : Prop :=
  ¬w.Calm ∧ e.IsStore

theorem struck_of_error {α : Type} {x : Pass α} {e : Abort SyncError}
    (hfails : Fails Abort.IsStore x) (htotal : w.Calm → ∃ a v, x w = (.ok a, v))
    (h : x w = (.error e, w')) : Struck w e := by
  refine ⟨fun hw => ?_, hfails w e w' h⟩
  obtain ⟨a, v, hok⟩ := htotal hw
  cases hok.symm.trans h

theorem Struck.of_run {α : Type} {x : Pass α} {result : Except (Abort SyncError) α}
    {e : Abort SyncError} (h : Struck w' e) (hx : Within Calmly x) (hrun : x w = (result, w')) :
    Struck w e :=
  ⟨fun hw => h.1 (hx.of_run hrun hw), h.2⟩

theorem going_publish (y : Syncer) (d : Diff) : Within Going (y.publish d) := by
  intro w
  unfold publish
  split
  · exact id
  · exact id

theorem going_sync (y : Syncer) (svc : Service) (r : Repo) : Within Going (y.sync svc r) :=
  admits_sync (p := fun _ => True) (going_publish y) trivial

theorem reconcile_error (hs : w.store.catalog.Furnished) {e : Abort SyncError}
    (h : y.reconcile svc r w = (.error e, w')) : e.IsError := by
  unfold reconcile at h
  rcases bind_cases h with ⟨e', hlist, he⟩ | ⟨matching, v, hlist, hrest⟩
  · cases he
    exact isError_store _ _ _ w _ _ hlist
  · have hread := store_ok hlist
    rw [run_twins hs] at hread
    obtain ⟨hmatching, -⟩ := Prod.mk.inj hread
    cases hmatching
    obtain ⟨rival, existing, htold, -⟩ := exists_told w.store.catalog r
    simp only [related_found, htold] at hrest
    refine Fails.bind (isError_displace y rival) (fun ds => ?_) v e w' hrest
    cases existing with
    | some x => exact (isError_refresh y svc x r).bind fun _ => .pure _
    | none => exact (isError_checkRoom y svc).bind fun _ =>
        (isError_introduce y svc r).bind fun _ => .pure _

/-- Nothing breaks off what is done for a single repository. -/
theorem sync_error (hs : w.store.catalog.Furnished) {e : Abort SyncError}
    (h : y.sync svc r w = (.error e, w')) : ∃ error, e = .failed error := by
  have hfails : e.IsError := by
    unfold sync at h
    rcases bind_cases h with ⟨e', hrun, he⟩ | ⟨d, v, -, hrest⟩
    · cases he
      refine transaction_error (fun _ => trivial) (fun _ => trivial) hrun ?_
      intro u e u' hu hbody
      refine reconcile_error ?_ hbody
      rw [hu]
      exact hs
    · exact ((fails_publishSome y d).bind fun _ => .pure d) v e w' hrest
  cases e with
  | failed error => exact ⟨error, rfl⟩
  | defect d => exact hfails.elim

/-- What becomes of one item: which repository is brought up to date, and which failure is noted. -/
inductive Taken (y : Syncer) (svc : Service) (allowed : Bool) (w : World) :
    Item → List Repo → List SyncError → World → Prop where
  | refused (e : SourceError) :
      Taken y svc allowed w (.error e) [] [.source svc.displayName e] w
  | passedOver {r : Repo} :
      r.isPrivate = true → allowed = false → Taken y svc allowed w (.ok r) [] [] w
  | kept {r : Repo} {d : Diff} {v : World} : (r.isPrivate = true → allowed = true) →
      y.sync svc r w = (.ok d, v) → Taken y svc allowed w (.ok r) [r] [] v
  | failed {r : Repo} {e : SyncError} {v : World} : (r.isPrivate = true → allowed = true) →
      y.sync svc r w = (.error (.failed e), v) → Taken y svc allowed w (.ok r) [] [e] v

/-- What becomes of items that are taken one after the other. -/
inductive Course (y : Syncer) (svc : Service) (allowed : Bool) :
    World → List Item → List Repo → List SyncError → World → Prop where
  | done (w : World) : Course y svc allowed w [] [] [] w
  | next {w v w' : World} {item : Item} {items : List Item} {kept kept' : List Repo}
      {failures failures' : List SyncError} : Taken y svc allowed w item kept failures v →
      Course y svc allowed v items kept' failures' w' →
        Course y svc allowed w (item :: items) (kept ++ kept') (failures ++ failures') w'

theorem Taken.sublist {item : Item} {kept : List Repo} {failures : List SyncError}
    (h : Taken y svc allowed w item kept failures w') :
    kept.Sublist (Listing.ofItems [item]).repos := by
  cases h with
  | refused e => exact .refl _
  | passedOver hprivate hallowed => exact List.nil_sublist _
  | kept hvisible hrun => exact .refl _
  | failed hvisible hrun => exact List.nil_sublist _

/-- What holds while a stream is read, as far as some repositories were brought up to date. -/
structure Underway (svc : Service) (kept : List Repo) (s : Stream) : Prop where
  rooted : s.world.store.catalog.Rooted
  served : Served s.world.store.catalog svc (Repo.lasting kept) s.seen
  sound : s.defect = none

theorem Underway.kept {s : Stream} {before : List Repo} (hs : Underway svc before s)
    (hr : r.Streamable svc)
    (hbefore : ∀ x ∈ before, x.lowerName = Text.Ascii.lower x.name ∧ x.spec ≠ r.spec)
    {d : Diff} {v : World} (hrun : y.sync svc r s.world = (.ok d, v)) :
    Underway svc (before ++ [r]) (({ s with world := v } : Stream).note (.ok d)).1 ∧
      SameSetting s.world.store.catalog v.store.catalog := by
  have hwrote : Within (Wrote fun _ => True) (y.sync svc r) :=
    admits_sync (p := fun _ => True) (wrote_publish y) trivial
  have hv : v.store.catalog.Rooted := hs.rooted.of_writes (hwrote.of_run hrun).catalog
  obtain ⟨url, hclaim⟩ := Repo.claim_of_solo hr.claims
  obtain ⟨j, out, hseated, hids⟩ :=
    sync_seated hs.rooted.furnished hr.live hr.spec hclaim hrun
  obtain ⟨row, hrow, -⟩ := hseated.stands.row
  have hj : j ∈ (d.repos.map (·.id)).filter (· != 0) := by
    refine List.mem_filter.mpr ⟨(hids j).mpr (.inl rfl), ?_⟩
    rw [bne_iff_ne]
    exact Int.ne_of_gt (hv.ids j row hrow)
  exact ⟨⟨hv, hs.served.seated hseated hr.name hbefore hj fun i hi =>
    (hids i).mp (List.mem_filter.mp hi).1, hs.sound⟩, hseated.setting⟩

theorem Underway.failed {s : Stream} {before : List Repo} (hs : Underway svc before s)
    {e : SyncError} {v : World} (hrun : y.sync svc r s.world = (.error (.failed e), v)) :
    Underway svc before (({ s with world := v } : Stream).note (.error (.failed e))).1 ∧
      SameSetting s.world.store.catalog v.store.catalog := by
  have hsame : v.store.catalog = s.world.store.catalog := (untouched_of_sync hrun).catalog
  refine ⟨⟨?_, ?_, hs.sound⟩, hsame ▸ .refl _⟩
  · exact hsame ▸ hs.rooted
  · exact hsame ▸ hs.served

theorem takeItem_synced {s : Stream} {v : World} {result : Except (Abort SyncError) Diff}
    (hvisible : ¬(r.isPrivate && !allowed) = true) (hrun : y.sync svc r s.world = (result, v)) :
    y.takeItem svc allowed s (.ok r) = ({ s with world := v } : Stream).note result := by
  unfold takeItem
  simp only []
  rw [if_neg hvisible, hrun]

theorem takeItem_taken (y : Syncer) (allowed : Bool) {s : Stream} {item : Item}
    {before : List Repo} (hs : Underway svc before s)
    (hrepo : ∀ r, item = .ok r → r.Streamable svc ∧
      ∀ x ∈ before, x.lowerName = Text.Ascii.lower x.name ∧ x.spec ≠ r.spec)
    (herror : ∀ e, item = .error e →
      (SyncError.source svc.displayName e).credentialFailure? = none) :
    ∃ t kept failures, y.takeItem svc allowed s item = (t, true) ∧
      Taken y svc allowed s.world item kept failures t.world ∧
      t.errors = s.errors ++ failures ∧ Underway svc (before ++ kept) t ∧
      SameSetting s.world.store.catalog t.world.store.catalog := by
  cases item with
  | error e =>
      refine ⟨{ s with errors := s.errors ++ [.source svc.displayName e] }, [],
        [.source svc.displayName e], ?_, .refused e, rfl, ?_, .refl _⟩
      · unfold takeItem Stream.refuse
        simp only [herror e rfl]
      · rw [List.append_nil]
        exact ⟨hs.rooted, hs.served, hs.sound⟩
  | ok r =>
      obtain ⟨hr, hbefore⟩ := hrepo r rfl
      by_cases hprivate : (r.isPrivate && !allowed) = true
      · obtain ⟨hp, ha⟩ := Bool.and_eq_true_iff.mp hprivate
        refine ⟨s, [], [], if_pos hprivate, .passedOver hp (Bool.not_eq_true' _ ▸ ha), ?_, ?_,
          .refl _⟩
        · rw [List.append_nil]
        · rw [List.append_nil]
          exact hs
      have hvisible : r.isPrivate = true → allowed = true := by
        intro hp
        rw [hp, Bool.true_and, Bool.not_eq_true', Bool.not_eq_false] at hprivate
        exact hprivate
      cases hrun : y.sync svc r s.world with
      | mk result v =>
          have htake := takeItem_synced hprivate hrun
          cases result with
          | ok d =>
              obtain ⟨hkept, hsetting⟩ := hs.kept hr hbefore hrun
              exact ⟨_, [r], [], htake, .kept hvisible hrun, (List.append_nil _).symm, hkept,
                hsetting⟩
          | error e =>
              obtain ⟨error, rfl⟩ := sync_error hs.rooted.furnished hrun
              obtain ⟨hfailed, hsetting⟩ := hs.failed hrun
              refine ⟨_, [], [error], htake, .failed hvisible hrun, rfl, ?_, hsetting⟩
              rw [List.append_nil]
              exact hfailed

theorem readAll_course {s : Stream} {before : List Repo} (hs : Underway svc before s)
    (hproper : ∀ x ∈ before ++ (Listing.ofItems items).repos, x.Streamable svc)
    (hapart : (before ++ (Listing.ofItems items).repos).Pairwise fun a b => a.spec ≠ b.spec)
    (herrors : ∀ e, .error e ∈ items →
      (SyncError.source svc.displayName e).credentialFailure? = none)
    (hgoing : ((y.streamReader svc allowed).readAll s items).1.world.isCancelled = false) :
    ∃ t kept failures, (y.streamReader svc allowed).readAll s items = (t, .exhausted) ∧
      Course y svc allowed s.world items kept failures t.world ∧
      t.errors = s.errors ++ failures ∧ Underway svc (before ++ kept) t ∧
      SameSetting s.world.store.catalog t.world.store.catalog := by
  induction items generalizing s before with
  | nil =>
      have hc : ¬(y.streamReader svc allowed).isCancelled s = true := Bool.eq_false_iff.mp hgoing
      refine ⟨s, [], [], ?_, .done _, (List.append_nil _).symm, ?_, .refl _⟩
      · unfold Reader.readAll
        rw [if_neg hc]
      · rw [List.append_nil]
        exact hs
  | cons item items ih =>
      have hc : ¬(y.streamReader svc allowed).isCancelled s = true :=
        Bool.eq_false_iff.mp (within_readAll (R := Going) (fun r _ => going_sync y svc r) allowed s
          hgoing)
      rw [ofItems_cons_repos] at hproper hapart
      have hrepo : ∀ r, item = .ok r → r.Streamable svc ∧
          ∀ x ∈ before, x.lowerName = Text.Ascii.lower x.name ∧ x.spec ≠ r.spec := by
        rintro r rfl
        have hr : r ∈ (Listing.ofItems [.ok r]).repos ++ (Listing.ofItems items).repos :=
          List.mem_cons_self
        exact ⟨hproper r (List.mem_append_right _ hr), fun x hx =>
          ⟨(hproper x (List.mem_append_left _ hx)).name,
            (List.pairwise_append.mp hapart).2.2 x hx r hr⟩⟩
      obtain ⟨t, kept, failures, htake, htaken, herr, ht, hsetting⟩ :=
        takeItem_taken y allowed hs hrepo fun e he => herrors e (he ▸ List.mem_cons_self)
      have hsub : (before ++ kept ++ (Listing.ofItems items).repos).Sublist
          (before ++ ((Listing.ofItems [item]).repos ++ (Listing.ofItems items).repos)) := by
        rw [List.append_assoc]
        exact (List.Sublist.refl _).append (htaken.sublist.append (List.Sublist.refl _))
      have hreceive : (y.streamReader svc allowed).receive s item = (t, true) := htake
      rw [Reader.readAll_cons hc, hreceive, if_pos rfl] at hgoing ⊢
      obtain ⟨u, kept', failures', hread, hcourse, herr', hu, hsetting'⟩ :=
        ih ht (fun x hx => hproper x (hsub.subset hx)) (hapart.sublist hsub)
          (fun e he => herrors e (List.mem_cons_of_mem _ he)) hgoing
      refine ⟨u, kept ++ kept', failures ++ failures', hread, .next htaken hcourse, ?_, ?_,
        hsetting.trans hsetting'⟩
      · rw [herr', herr, List.append_assoc]
      · rw [← List.append_assoc]
        exact hu

theorem Course.sublist {kept : List Repo} {failures : List SyncError}
    (h : Course y svc allowed w items kept failures w') :
    kept.Sublist (Listing.ofItems items).repos := by
  induction h with
  | done w => exact .refl _
  | @next _ _ _ item items _ _ _ _ htaken _ ih =>
      rw [ofItems_cons_repos]
      exact htaken.sublist.append ih

/-- A stream that is read to its end without being stopped: each name belongs to the last repository
that was brought up to date under it. -/
theorem readStream_lasting (hs : w.store.catalog.Rooted)
    (hproper : ∀ x ∈ (Listing.ofItems items).repos, x.Streamable svc)
    (hapart : (Listing.ofItems items).repos.Pairwise fun a b => a.spec ≠ b.spec)
    (herrors : ∀ e, .error e ∈ items →
      (SyncError.source svc.displayName e).credentialFailure? = none)
    {result : Except (Abort SyncError) Stream}
    (h : y.readStream svc allowed items w = (result, w')) (hgoing : w'.isCancelled = false) :
    ∃ s kept, result = .ok s ∧ Course y svc allowed w items kept s.errors w' ∧
      w'.store.catalog.Rooted ∧ Served w'.store.catalog svc (Repo.lasting kept) s.seen ∧
      SameSetting w.store.catalog w'.store.catalog := by
  have hend : ((y.streamReader svc allowed).readAll (Stream.start w) items).1.world = w' :=
    (snd_readStream y svc allowed items w).symm.trans (congrArg Prod.snd h)
  have hstart : Underway svc [] (Stream.start w) :=
    ⟨hs, ⟨fun x hx => (by cases hx), fun i hi => (by cases hi)⟩, rfl⟩
  obtain ⟨s, kept, failures, hread, hcourse, herr, hunderway, hsetting⟩ :=
    readAll_course hstart hproper hapart herrors (hend ▸ hgoing)
  rw [hread] at hend
  cases hend
  refine ⟨s, kept, ?_, ?_, hunderway.rooted, hunderway.served, hsetting⟩
  · rw [readStream_eq, hread] at h
    simp only [hunderway.sound] at h
    exact (congrArg Prod.fst h).symm
  · rw [herr]
    exact hcourse

theorem sweepUnseen_told {keep : List Int} {lost : Bool} (hs : w.store.catalog.Furnished)
    (h : y.sweepUnseen svc keep w = (.ok lost, w')) :
    ∃ ids, Swept w.store.catalog svc keep ids w'.store.catalog ∧ lost = !ids.isEmpty := by
  rw [sweepUnseen_eq] at h
  obtain ⟨ids, v, hdone, h⟩ := bind_ok_iff.mp h
  obtain ⟨u, u', hu, hrun, hcatalog⟩ :=
    transaction_ok (on_store (Store.within_sweep svc keep)) hdone
  have hsame : u.store.catalog = w.store.catalog := catalog_of_opened hu
  have hstill : w'.store = v.store := (asks_tellSwept (still_publish y) ids).of_run h
  refine ⟨ids, ?_, ?_⟩
  · rw [hstill, hcatalog, ← hsame]
    exact Store.sweep_ok (hsame ▸ hs) (store_ok hrun)
  · unfold tellSwept at h
    split at h
    · rename_i hempty
      cases h
      rw [hempty]
      rfl
    · rename_i hsome
      obtain ⟨deleted, u₁, -, h⟩ := bind_ok_iff.mp h
      obtain ⟨⟨⟩, u₂, -, h⟩ := bind_ok_iff.mp h
      cases h
      rw [Bool.eq_false_iff.mpr hsome]
      rfl

theorem sweepUnseen_ok {keep : List Int} {lost : Bool} (hs : w.store.catalog.Furnished)
    (h : y.sweepUnseen svc keep w = (.ok lost, w')) :
    ∃ ids, Swept w.store.catalog svc keep ids w'.store.catalog :=
  let ⟨ids, hswept, _⟩ := sweepUnseen_told hs h
  ⟨ids, hswept⟩

theorem tellSwept_total (hw : w.Calm) (hs : w.store.catalog.Furnished) (y : Syncer)
    (swept : List Int) : ∃ lost w', y.tellSwept swept w = (.ok lost, w') := by
  unfold tellSwept
  split
  · exact ⟨false, w, rfl⟩
  · rw [bind_of_ok (run_store hw.faults _ _ (Store.run_listRepos hs _))]
    obtain ⟨u, hpublish⟩ := publish_total y _ _
    rw [bind_of_ok hpublish]
    exact ⟨true, u, rfl⟩

theorem sweepUnseen_total (hw : w.Calm) (hs : w.store.catalog.Furnished) (y : Syncer)
    (svc : Service) (keep : List Int) : ∃ lost w', y.sweepUnseen svc keep w = (.ok lost, w') := by
  obtain ⟨ids, t, hsweep, hswept⟩ := Store.run_sweep (s := opened w.store) hs svc keep
  have hopened : ({ w with store := opened w.store } : World).faults = [] := hw.faults
  have ht : t.catalog.Furnished :=
    Furnished.of_sameSetting (c := (opened w.store).catalog) hs hswept.setting
  rw [sweepUnseen_eq,
    bind_of_ok (run_transaction_ok hw.faults (run_store hopened _ _ hsweep) hw.faults)]
  exact tellSwept_total (w := { w with store := { t with saved := t.saved.tail } })
    ⟨hw.faults, hw.going⟩ ht y ids

theorem allowsPrivate_total (hw : w.Calm) (hs : w.store.catalog.Furnished) (y : Syncer)
    (svc : Service) : ∃ allowed w', y.allowsPrivate svc w = (.ok allowed, w') := by
  unfold allowsPrivate
  cases svc.owner? with
  | none => exact ⟨true, w, rfl⟩
  | some user =>
      simp only []
      split
      · exact ⟨true, w, rfl⟩
      · exact ⟨_, _, run_store hw.faults _ _ (Store.run_read hs.tables _ _)⟩

theorem recordVisit_error {interval : Duration} {e : Abort SyncError}
    (hs : w.store.catalog.Furnished) (hsvc : w.store.catalog.Holds svc)
    (h : y.recordVisit svc interval w = (.error e, w')) :
    (y.now.add? interval = none ∧ e = .defect .timeAfterEnd ∧ w' = w) ∨ Struck w e := by
  cases hnext : y.now.add? interval with
  | none =>
      unfold recordVisit at h
      rw [hnext] at h
      cases h
      exact .inl ⟨rfl, rfl, rfl⟩
  | some next =>
      have hfails : Fails Abort.IsStore (y.recordVisit svc interval) := by
        unfold recordVisit
        rw [hnext]
        exact (fails_store _ _ _ fun _ => trivial).bind fun _ => .pure ()
      have hok := fun hw : w.Calm => (recordVisit_ok_iff (y := y) hw hs hsvc interval).mpr
        (Option.isSome_iff_exists.mpr ⟨next, hnext⟩)
      exact .inr (struck_of_error hfails (fun hw => ⟨(), hok hw⟩) h)

theorem fails_sweepUnseen (y : Syncer) (svc : Service) (keep : List Int) :
    Fails Abort.IsStore (y.sweepUnseen svc keep) := by
  rw [sweepUnseen_eq]
  refine Fails.bind (fails_transaction (fun _ => trivial) (fun _ => trivial)
    (fails_store _ _ _ fun _ => trivial)) fun swept => ?_
  unfold tellSwept
  split
  · exact .pure _
  · exact (fails_store _ _ _ fun _ => trivial).bind fun deleted =>
      (fails_publish y _).bind fun _ => .pure _

/-- What a streaming pass still does once all items were taken. -/
def closing (y : Syncer) (svc : Service) (least : Duration) (s : Stream) : Pass Unit := do
  let lost ← y.sweepUnseen svc s.seen
  y.recordVisit svc
    (Resync.afterStream y.now svc.lastSyncAt least (s.modified || lost) (!s.errors.isEmpty))
  Effect.ofExcept (SyncError.bundle s.errors)

theorem stream_eq (y : Syncer) (svc : Service) (least : Duration) : y.stream svc least = (do
    let allowed ← y.allowsPrivate svc
    let items ← y.itemsOf svc
    let s ← y.readStream svc allowed items
    y.closing svc least s) := rfl

/-- How the closing of a streaming pass ends in the world `w'`: with the error that kept it from its
sweep or from putting the visit on record, or with what it reports. -/
inductive Closes (y : Syncer) (svc : Service) (least : Duration) (s : Stream) (w : World) :
    Except (Abort SyncError) Unit → World → Prop where
  | unswept {e : Abort SyncError} {w' : World} :
      y.sweepUnseen svc s.seen w = (.error e, w') → Closes y svc least s w (.error e) w'
  | unrecorded {lost : Bool} {v w' : World} {e : Abort SyncError} :
      y.sweepUnseen svc s.seen w = (.ok lost, v) →
      y.recordVisit svc (Resync.afterStream y.now svc.lastSyncAt least (s.modified || lost)
        (!s.errors.isEmpty)) v = (.error e, w') → Closes y svc least s w (.error e) w'
  | reported {lost : Bool} {v u w' : World} {result : Except (Abort SyncError) Unit} :
      y.sweepUnseen svc s.seen w = (.ok lost, v) →
      y.recordVisit svc (Resync.afterStream y.now svc.lastSyncAt least (s.modified || lost)
        (!s.errors.isEmpty)) v = (.ok (), u) →
      Effect.ofExcept (SyncError.bundle s.errors) u = (result, w') →
      Closes y svc least s w result w'

theorem closing_steps {s : Stream} {result : Except (Abort SyncError) Unit}
    (h : y.closing svc least s w = (result, w')) : Closes y svc least s w result w' := by
  unfold closing at h
  rcases bind_cases h with ⟨e, hsweep, rfl⟩ | ⟨lost, v, hsweep, hrest⟩
  · exact .unswept hsweep
  rcases bind_cases hrest with ⟨e, hvisit, rfl⟩ | ⟨⟨⟩, u, hvisit, hend⟩
  · exact .unrecorded hsweep hvisit
  · exact .reported hsweep hvisit hend

theorem going_closing (y : Syncer) (svc : Service) (least : Duration) (s : Stream) :
    Within Going (y.closing svc least s) :=
  Within.bind (admits_sweepUnseen (fun _ => True) (going_publish y) s.seen) fun _ =>
    Within.bind (within_recordVisit y svc _ fun _ _ => outward_store _ _ _) fun _ =>
      within_ofExcept _

section
variable {S : Catalog → Catalog → Prop} [Asks (OnFurnished S)]

theorem onFurnished_sweepUnseen (hrefl : ∀ c, S c c)
    (hsweep : ∀ {c keep ids d}, c.Furnished → Swept c svc keep ids d → S c d) (y : Syncer)
    (keep : List Int) : Within (OnFurnished S) (y.sweepUnseen svc keep) := by
  rw [sweepUnseen_eq]
  refine Within.bind (onFurnished_transaction hrefl (on_store (Store.within_sweep svc keep)) ?_)
    (asks_tellSwept fun d v => .of_store hrefl (still_publish y d v))
  exact fun v ids v' hs hrun => hsweep hs (Store.sweep_ok hs (store_ok hrun))

theorem onFurnished_recordVisit (hrefl : ∀ c, S c c) (hvisit : ∀ {c d}, Visited c d → S c d)
    (y : Syncer) (hid : svc.id ≠ 0) (interval : Duration) :
    Within (OnFurnished S) (y.recordVisit svc interval) := by
  refine within_recordVisit y svc interval fun visited hsame v hs => ?_
  unfold store
  rw [snd_mapError]
  rcases call_store .putService (Store.putService visited) v with ⟨hstore, -⟩ | ⟨hstore, -⟩
  · rw [hstore]
    exact hrefl _
  · rw [hstore]
    rcases Store.visited_of_putService hs (hsame ▸ hid) with hvisited | hstill
    · exact hvisit hvisited
    · rw [hstill]
      exact hrefl _

/-- What sweeps and visits keep, a streaming pass keeps once all items were taken. -/
theorem onFurnished_closing (hrefl : ∀ c, S c c)
    (hsweep : ∀ {c keep ids d}, c.Furnished → Swept c svc keep ids d → S c d)
    (hvisit : ∀ {c d}, Visited c d → S c d) (y : Syncer) (hid : svc.id ≠ 0) (least : Duration)
    (s : Stream) : Within (OnFurnished S) (y.closing svc least s) :=
  Within.bind (onFurnished_sweepUnseen hrefl hsweep y s.seen) fun _ =>
    Within.bind (onFurnished_recordVisit hrefl hvisit y hid _) fun _ => within_ofExcept _

end

instance : Asks (OnFurnished fun c d => c.Furnished → Visited c d) :=
  asks_onFurnished (fun _ => .refl) (fun h h' hc => (h hc).trans (h' (h hc).furnished))
    fun hc h => (h hc).furnished

theorem visited_recordVisit (y : Syncer) (hid : svc.id ≠ 0) (interval : Duration) :
    Within (OnFurnished fun c d => c.Furnished → Visited c d) (y.recordVisit svc interval) :=
  onFurnished_recordVisit (S := fun c d => c.Furnished → Visited c d) (fun _ => .refl)
    (fun h _ => h) y hid interval

/-- How a streaming pass ends with these failures: well if there are none, and else with all of them
in one bundle, unless the time of the next visit cannot be told. -/
inductive Reported (y : Syncer) (svc : Service) (least : Duration) (failures : List SyncError) :
    Except (Abort SyncError) Unit → Prop where
  | well : failures = [] → Reported y svc least failures (.ok ())
  | bundled : failures ≠ [] → Reported y svc least failures (.error (.failed (.multi failures)))
  | late (modified : Bool) :
      y.now.add? (Resync.afterStream y.now svc.lastSyncAt least modified (!failures.isEmpty)) =
        none → Reported y svc least failures (.error (.defect .timeAfterEnd))

theorem reported_bundle {failures : List SyncError} {result : Except (Abort SyncError) Unit}
    (h : Effect.ofExcept (SyncError.bundle failures) w = (result, w')) :
    Reported y svc least failures result ∧ w' = w := by
  cases failures with
  | nil =>
      cases h
      exact ⟨.well rfl, rfl⟩
  | cons e es =>
      cases h
      exact ⟨.bundled (List.cons_ne_nil e es), rfl⟩

theorem closing_cases {s : Stream} {kept : List Repo} {result : Except (Abort SyncError) Unit}
    (hs : w.store.catalog.Furnished) (hsvc : w.store.catalog.Holds svc)
    (hserved : Served w.store.catalog svc kept s.seen)
    (h : y.closing svc least s w = (result, w')) :
    (∃ e, result = .error e ∧ Struck w e) ∨
      Serves w'.store.catalog svc kept ∧
        (∀ k : MemberKey, k.service ≠ svc.id →
          w'.store.catalog.members.get? k = w.store.catalog.members.get? k) ∧
        Reported y svc least s.errors result := by
  have hothers : ∀ {v ids}, Swept w.store.catalog svc s.seen ids v → ∀ k : MemberKey,
      k.service ≠ svc.id → v.members.get? k = w.store.catalog.members.get? k := by
    intro v ids hswept k hk
    rw [hswept.members, if_neg fun h => hk h.1]
  cases closing_steps h with
  | @unswept e _ hsweep =>
      exact .inl ⟨e, rfl, struck_of_error (fails_sweepUnseen y svc s.seen)
        (fun hw => sweepUnseen_total hw hs y svc s.seen) hsweep⟩
  | @unrecorded lost v _ e hsweep hvisit =>
      obtain ⟨ids, hswept⟩ := sweepUnseen_ok hs hsweep
      rcases recordVisit_error (hs.of_sameSetting hswept.setting)
        (hsvc.of_sameSetting hswept.setting) hvisit with ⟨hnext, rfl, rfl⟩ | hstruck
      · exact .inr ⟨hserved.swept hswept, hothers hswept, .late _ hnext⟩
      · have hcalmly : Within Calmly (y.sweepUnseen svc s.seen) :=
          admits_sweepUnseen (fun _ => True) (calmly_publish y) s.seen
        exact .inl ⟨e, rfl, hstruck.of_run hcalmly hsweep⟩
  | @reported lost v u _ _ hsweep hvisit hend =>
      obtain ⟨ids, hswept⟩ := sweepUnseen_ok hs hsweep
      have hvisited := recordVisit_ok (hs.of_sameSetting hswept.setting)
        (Int.ne_of_gt (hsvc.range hs).1) hvisit
      obtain ⟨hreported, rfl⟩ := reported_bundle hend
      refine .inr ⟨(hserved.swept hswept).visited hvisited, fun k hk => ?_, hreported⟩
      rw [hvisited.members]
      exact hothers hswept k hk

theorem Struck.faulty {e : Abort SyncError} (h : Struck w e) (hgoing : w.isCancelled = false) :
    w.faults ≠ [] ∧ ∃ context error, e = .failed (.store context error) :=
  ⟨fun hfaults => h.1 ⟨hfaults, hgoing⟩, h.2.cases⟩

theorem going_stream (y : Syncer) (svc : Service) (least : Duration) :
    Within Going (y.stream svc least) :=
  admits_stream (fun _ => True) (going_publish y) (fun _ _ _ _ => trivial) fun _ _ =>
    outward_store _ _ _

/-- Nothing but a fault of the store keeps a pass that nobody stops from reading its stream, and
what it does next is to close. -/
theorem stream_steps (hs : w.store.catalog.Furnished) (hsource : y.sourceOf svc = .ok items)
    {result : Except (Abort SyncError) Unit} (hrun : y.stream svc least w = (result, w'))
    (hgoing : w'.isCancelled = false) :
    (w.faults ≠ [] ∧ ∃ context e, result = .error (.failed (.store context e))) ∨
      ∃ v answer u, y.allowsPrivate svc w = (.ok (y.sees w.store.catalog svc), v) ∧
        v.store = w.store ∧
        y.readStream svc (y.sees w.store.catalog svc) items v = (answer, u) ∧
        u.isCancelled = false ∧
        (∀ s, answer = .ok s → y.closing svc least s u = (result, w')) ∧
        ∀ e, Struck u e → w.faults ≠ [] ∧ ∃ context error, e = .failed (.store context error) := by
  have hgo := (going_stream y svc least).of_run hrun hgoing
  rw [stream_eq] at hrun
  rcases bind_cases hrun with ⟨e, hallowed, rfl⟩ | ⟨allowed, v, hallowed, hrun⟩
  · have hstruck := struck_of_error (fails_allowsPrivate y svc fun _ => trivial)
      (fun hw => allowsPrivate_total hw hs y svc) hallowed
    obtain ⟨hfaults, context, error, rfl⟩ := hstruck.faulty hgo
    exact .inl ⟨hfaults, context, error, rfl⟩
  rw [bind_of_ok (run_itemsOf hsource v), run_bind] at hrun
  rw [← allowsPrivate_ok hs hallowed]
  cases hread : y.readStream svc allowed items v with
  | mk answer u =>
  rw [hread] at hrun
  refine .inr ⟨v, answer, u, hallowed, (asks_allowsPrivate (R := SameStore) y svc).of_run hallowed,
    hread, ?_, ?_, fun e hstruck => ?_⟩
  · cases answer with
    | error e =>
        cases hrun
        exact hgoing
    | ok s => exact (going_closing y svc least s).of_run hrun hgoing
  · rintro s rfl
    exact hrun
  · have hreads : Within Calmly (y.readStream svc allowed items) :=
      within_readStream (fun r _ => admits_sync (p := fun _ => True) (calmly_publish y) trivial)
        allowed
    exact Struck.faulty ((hstruck.of_run hreads hread).of_run (asks_allowsPrivate y svc) hallowed)
      hgo

/-- A streaming pass that nobody stopped leaves the service with what was brought up to date last
under each name. -/
theorem stream_serves (hc : w.store.catalog.Rooted) (hsvc : w.store.catalog.Holds svc)
    (hsource : y.sourceOf svc = .ok items)
    (hproper : ∀ x ∈ (Listing.ofItems items).repos, x.Streamable svc)
    (hapart : (Listing.ofItems items).repos.Pairwise fun a b => a.spec ≠ b.spec)
    (herrors : ∀ e, .error e ∈ items →
      (SyncError.source svc.displayName e).credentialFailure? = none)
    {result : Except (Abort SyncError) Unit} (hrun : y.stream svc least w = (result, w'))
    (hgoing : w'.isCancelled = false) :
    (w.faults ≠ [] ∧ ∃ context e, result = .error (.failed (.store context e))) ∨
      ∃ v v' kept failures, y.allowsPrivate svc w = (.ok (y.sees w.store.catalog svc), v) ∧
        v.store = w.store ∧ Course y svc (y.sees w.store.catalog svc) v items kept failures v' ∧
        Serves w'.store.catalog svc (Repo.lasting kept) ∧
        (∀ k : MemberKey, k.service ≠ svc.id →
          w'.store.catalog.members.get? k = v'.store.catalog.members.get? k) ∧
        Reported y svc least failures result := by
  rcases stream_steps hc.furnished hsource hrun hgoing with
    hfaulty | ⟨v, answer, u, hallowed, hsame, hread, hu, hcloses, hfaulty⟩
  · exact .inl hfaulty
  have hv : v.store.catalog.Rooted := by
    rw [hsame]
    exact hc
  obtain ⟨s, kept, rfl, hcourse, hu', hserved, hsetting⟩ :=
    readStream_lasting hv hproper hapart herrors hread hu
  rw [hsame] at hsetting
  rcases closing_cases hu'.furnished (hsvc.of_sameSetting hsetting) hserved (hcloses s rfl) with
    ⟨e, rfl, hstruck⟩ | ⟨hserves, hothers, hreported⟩
  · obtain ⟨hfaults, context, error, rfl⟩ := hfaulty e hstruck
    exact .inl ⟨hfaults, context, error, rfl⟩
  · exact .inr ⟨v, u, kept, s.errors, hallowed, hsame, hcourse, hserves, hothers, hreported⟩

end Syncer

namespace Catalog

open Effect Syncer

/-- A streaming pass that nobody stopped, over repositories that share neither identities nor names,
leaves the service with exactly what was brought up to date, takes nothing from other services in
the end, and reports every item that failed; only the store may keep it from that, if it has faults
of its own. -/
theorem stream_converges {p : Service → Repo → Prop} {y : Syncer} {svc : Service}
    {least : Duration} {items : List Item} {w w' : World} {r : Except (Abort SyncError) Unit}
    (hreach : Reachable p w.store.catalog) (hsvc : w.store.catalog.Holds svc)
    (hsource : y.sourceOf svc = .ok items)
    (hproper : ∀ x ∈ (Listing.ofItems items).repos, x.Presentable svc)
    (hapart : (Listing.ofItems items).repos.Pairwise Repo.Apart)
    (herrors : ∀ e, .error e ∈ items →
      (SyncError.source svc.displayName e).credentialFailure? = none)
    (hrun : y.stream svc least w = (r, w')) (hgoing : w'.isCancelled = false) :
    (w.faults ≠ [] ∧ ∃ context e, r = .error (.failed (.store context e))) ∨
      ∃ v v' kept failures, y.allowsPrivate svc w = (.ok (y.sees w.store.catalog svc), v) ∧
        Course y svc (y.sees w.store.catalog svc) v items kept failures v' ∧
        Serves w'.store.catalog svc kept ∧
        (∀ k : MemberKey, k.service ≠ svc.id →
          w'.store.catalog.members.get? k = v'.store.catalog.members.get? k) ∧
        Reported y svc least failures r := by
  rcases stream_serves hreach.rooted hsvc hsource (fun x hx => (hproper x hx).streamable)
    (hapart.imp And.left) herrors hrun hgoing with
    hfaulty | ⟨v, v', kept, failures, hallowed, -, hcourse, hserves, hothers, hreported⟩
  · exact .inl hfaulty
  · -- Where no two repositories have the same name, all that were brought up to date last.
    rw [Repo.lasting_of_apart (hapart.sublist hcourse.sublist)] at hserves
    exact .inr ⟨v, v', kept, failures, hallowed, hcourse, hserves, hothers, hreported⟩

/-- The host no longer lists a repository that it holds, and lists two others around a failure. -/
theorem stream_converges_around_failure :
    let items : List Item :=
      [.ok (Sample.entry "1" "alpha"), .error (.network "timeout"), .ok (Sample.entry "2" "Beta")]
    let y := Sample.syncer items
    let w := (y.perform (.sync Sample.hub (Sample.entry "3" "gamma")) Sample.base).2
    ∃ r w', y.stream Sample.hub ⟨0⟩ w = (r, w') ∧ ∃ v v' kept failures,
      y.allowsPrivate Sample.hub w = (.ok (y.sees w.store.catalog Sample.hub), v) ∧
      Course y Sample.hub (y.sees w.store.catalog Sample.hub) v items kept failures v' ∧
      Serves w'.store.catalog Sample.hub kept ∧
      (∀ k : MemberKey, k.service ≠ Sample.hub.id →
        w'.store.catalog.members.get? k = v'.store.catalog.members.get? k) ∧
      Reported y Sample.hub ⟨0⟩ failures r := by
  intro items y w
  have hstart : Reachable Repo.ListedBy Sample.base.store.catalog :=
    .start rfl rfl Sample.furnished_base
  have hlisted := Sample.entry_listedBy "3" "gamma"
  have hreach : Reachable Repo.ListedBy w.store.catalog := .pass y _ hstart hlisted
  have hsvc : w.store.catalog.Holds Sample.hub := by
    have hsync : Within Orderly (y.perform (.sync Sample.hub (Sample.entry "3" "gamma"))) :=
      Within.bind (within_sync y Sample.hub hlisted.live) fun _ => Within.pure ()
    exact Sample.holds_base.of_sameSetting ((hsync Sample.base).tidy hstart.tidy).2
  have hproper : ∀ x ∈ (Listing.ofItems items).repos, x.Presentable Sample.hub := by
    intro x hx
    have hlisted : x ∈ [Sample.entry "1" "alpha", Sample.entry "2" "Beta"] := hx
    rcases List.mem_pair.mp hlisted with rfl | rfl
    · exact ⟨rfl, ⟨_, rfl⟩, by decide +kernel, by decide +kernel⟩
    · exact ⟨rfl, ⟨_, rfl⟩, by decide +kernel, by decide +kernel⟩
  have hapart : (Listing.ofItems items).repos.Pairwise Repo.Apart :=
    List.pairwise_pair.mpr ⟨by decide +kernel, by decide +kernel⟩
  have herrors : ∀ e, .error e ∈ items →
      (SyncError.source Sample.hub.displayName e).credentialFailure? = none := by
    intro e he
    obtain rfl : e = .network "timeout" := by simpa [items] using he
    rfl
  have hgoing : (y.stream Sample.hub ⟨0⟩ w).2.isCancelled = false := by decide +kernel
  have hfaults : w.faults = [] := by decide +kernel
  cases hrun : y.stream Sample.hub ⟨0⟩ w with
  | mk r w' =>
      rw [hrun] at hgoing
      exact ⟨r, w', rfl, (stream_converges hreach hsvc rfl hproper hapart herrors hrun
        hgoing).resolve_left fun h => h.1 hfaults⟩

end Catalog

end RepoCatalog
