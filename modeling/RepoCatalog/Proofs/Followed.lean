import RepoCatalog.Proofs.Bystanders
import RepoCatalog.Proofs.Quiet
import RepoCatalog.Proofs.Overwritten

/-!
# When a pass is followed up

A pass that changed something is to be followed up as soon as possible. What passes count as changes
are their own differences, and these leave out two things: what a batch pass inserted early is
unmodified by the time it compares, and a streaming pass does not count a row that has made room for
a repository which itself was up to date. All other changes are counted.
-/
namespace RepoCatalog

open Step
open Time (Duration Instant)

theorem Time.Instant.add?_inj {t s : Instant} {a b : Duration} (hs : t.add? a = some s)
    (h : t.add? a = t.add? b) : a = b := by
  have hlead : ∀ d : Duration, t.add? d = some s → t.nanoseconds + d.nanoseconds = s.nanoseconds := by
    intro d hd
    unfold add? at hd
    simp only [Option.ite_none_right_eq_some, Option.some_inj] at hd
    exact congrArg Instant.nanoseconds hd.2
  have hsame := (hlead a hs).trans (hlead b (h.symm.trans hs)).symm
  cases a
  cases b
  exact congrArg Duration.mk (Int.add_left_cancel hsame)

/-- Whether a live row has the name of a listed repository of another identity, and has it unnoticed:
in full lower case the name is not what the lower case of basic letters makes of it. -/
structure Repo.Unseats (r : Repo) (row : RepoRow) : Prop where
  live : row.isLive = true
  name : row.nameKey = r.lowerName
  spec : row.spec ≠ r.spec
  unnoticed : r.deletedAt = none → Text.Ascii.lower r.name ≠ r.lowerName

namespace Catalog

variable {rs : List Repo} {c d e : Catalog}

/-- Nothing happened but that some rows made room for listed repositories. -/
structure Displaced (rs : List Repo) (c d : Catalog) : Prop where
  rows : ∀ j, d.repos.get? j = c.repos.get? j ∨ ∃ row now, c.repos.get? j = some row ∧
    d.repos.get? j = some (bury now row) ∧ ∃ r ∈ rs, r.Unseats row
  members : ∀ k, d.members.get? k ≠ c.members.get? k →
    d.members.get? k = none ∧ d.repos.get? k.repo ≠ c.repos.get? k.repo

theorem Displaced.of_sameRows (h : SameRows c d) : Displaced rs c d :=
  ⟨fun j => .inl (h.repos j), fun k hk => absurd (h.members k) hk⟩

theorem Displaced.mono {rs' : List Repo} (h : Displaced rs c d) (hrs : ∀ r ∈ rs, r ∈ rs') :
    Displaced rs' c d :=
  ⟨fun j => (h.rows j).imp_right fun ⟨row, now, hrow, hburied, r, hr, hunseats⟩ =>
    ⟨row, now, hrow, hburied, r, hrs r hr, hunseats⟩, h.members⟩

theorem Displaced.kept (h : Displaced rs c d) (h' : Displaced rs d e) {j : Int}
    (hj : d.repos.get? j ≠ c.repos.get? j) : e.repos.get? j = d.repos.get? j := by
  obtain ⟨row, now, -, hrow, -⟩ := (h.rows j).resolve_left hj
  rcases h'.rows j with hsame | ⟨row', now', hrow', -, r, -, hr⟩
  · exact hsame
  · cases hrow.symm.trans hrow'
    exact absurd hr.live (Bool.eq_false_iff.mp (not_isLive_bury now row))

theorem Displaced.trans (h : Displaced rs c d) (h' : Displaced rs d e) : Displaced rs c e := by
  constructor
  · intro j
    by_cases hj : d.repos.get? j = c.repos.get? j
    · have hlater := h'.rows j
      rwa [hj] at hlater
    · have hearlier := h.rows j
      rwa [← h.kept h' hj] at hearlier
  · intro k hk
    by_cases hfirst : d.members.get? k = c.members.get? k
    · rw [← hfirst] at hk
      obtain ⟨hgone, hrow⟩ := h'.members k hk
      refine ⟨hgone, ?_⟩
      by_cases hj : d.repos.get? k.repo = c.repos.get? k.repo
      · rwa [← hj]
      · exact absurd (h.kept h' hj) hrow
    · obtain ⟨hgone, hrow⟩ := h.members k hfirst
      rw [h.kept h' hrow]
      refine ⟨?_, hrow⟩
      by_cases hsecond : e.members.get? k = d.members.get? k
      · rw [hsecond, hgone]
      · exact (h'.members k hsecond).1

end Catalog

namespace Syncer

open Effect Catalog

variable {y : Syncer} {svc : Service} {r : Repo} {rs : List Repo} {least : Duration}
  {items : List Item} {d : Diff} {w w' : World}

theorem displaced_of_deleted {c : Catalog} {rival : Option Repo} {x : Repo}
    (htold : Told c r rival (some x))
    (hsame : x.differs { r with claims := r.claims.union x.claims } = false) {e : Catalog}
    (hdeleted : Deleted c (rival.toList.map (·.id)) e) : Displaced [r] c e := by
  obtain ⟨now, hrepos⟩ := hdeleted.repos
  have hroom : ∀ j ∈ rival.toList.map (·.id), ∃ old, c.repos.get? j = some old ∧
      e.repos.get? j = some (bury now old) ∧ r.Unseats old := by
    intro j hj
    obtain ⟨hne, old, hold, hlive, hkey, hspec⟩ := htold.displaced j hj
    refine ⟨old, hold, ?_, hlive, hkey, hspec, fun hr hname => hne ?_⟩
    · rw [hrepos, hold, Option.map_some, if_pos hj]
    -- Two live rows would have the name, if it were a name in basic letters.
    · obtain ⟨row, hrow, -, hview⟩ := htold.own x rfl
      rw [hview] at hsame
      have hup := Repo.same_of_differs hsame
      have hrowname : row.name = r.name := hup.name
      have hrowlive : row.isLive = true := Option.isNone_iff_eq_none.mpr (hup.live hr)
      have hrowkey : row.nameKey = old.nameKey := by
        rw [hkey, ← hname, ← hrowname]
        rfl
      exact (nameKey_inj hrow hold hrowlive hlive hrowkey).symm
  constructor
  · intro j
    by_cases hj : j ∈ rival.toList.map (·.id)
    · obtain ⟨old, hold, hburied, hunseats⟩ := hroom j hj
      exact .inr ⟨old, now, hold, hburied, r, List.mem_singleton_self r, hunseats⟩
    · left
      rw [hrepos]
      simp only [hj, if_false, Option.map_id']
  · intro k hk
    rw [hdeleted.members] at hk ⊢
    by_cases hj : k.repo ∈ rival.toList.map (·.id)
    · obtain ⟨old, hold, hburied, hunseats⟩ := hroom _ hj
      refine ⟨if_pos hj, fun hstays => ?_⟩
      rw [hburied, hold, Option.some_inj] at hstays
      exact absurd hunseats.live (hstays ▸ Bool.eq_false_iff.mp (not_isLive_bury now old))
    · rw [if_neg hj] at hk
      exact absurd rfl hk

/-- Of a repository that comes out neither added nor modified, nothing is written but that a row may
make room for it. -/
theorem displaced_of_reconcile (hs : w.store.catalog.Furnished)
    (h : y.reconcile svc r w = (.ok d, w')) (hadded : d.added = []) (hmodified : d.modified = []) :
    Displaced [r] w.store.catalog w'.store.catalog := by
  obtain ⟨rival, existing, ds, d', v, v', htold, hstore, hdisplace, rfl, hend⟩ :=
    reconcile_inv hs.tables h
  rw [← hstore] at hs htold ⊢
  obtain ⟨hdeleted, -⟩ := displace_deleted hs.tables hdisplace
  have hs' := hs.of_sameSetting hdeleted.setting
  rcases hend with ⟨x, rfl, hrefresh⟩ | ⟨-, u, -, hu, hintroduce⟩
  · rcases refresh_cases hs'.tables hrefresh with ⟨hsame, rfl, -⟩ | ⟨-, x', -, -, rfl⟩
    · exact displaced_of_deleted htold hsame hdeleted
    · cases hmodified
  · rw [← hu] at hs'
    obtain ⟨added, -, rfl⟩ := introduce_joined hs'.tables hintroduce
    cases hadded

/-- How far a stream has come in the catalog: as long as nothing counted as modified, nothing
happened but that some rows made room. -/
structure Unnoticed (rs : List Repo) (s t : Stream) : Prop where
  setting : s.world.store.catalog.Furnished →
    SameSetting s.world.store.catalog t.world.store.catalog
  counted : t.modified = false → s.modified = false
  displaced : s.world.store.catalog.Furnished → t.modified = false →
    Displaced rs s.world.store.catalog t.world.store.catalog

instance : Chained (Unnoticed rs) where
  refl _ := ⟨fun _ => .refl _, id, fun _ _ => .of_sameRows (.refl _)⟩
  trans h h' := ⟨fun hs => (h.setting hs).trans (h'.setting (hs.of_sameSetting (h.setting hs))),
    fun ht => h.counted (h'.counted ht),
    fun hs ht => (h.displaced hs (h'.counted ht)).trans
      (h'.displaced (hs.of_sameSetting (h.setting hs)) ht)⟩

theorem Unnoticed.of_untouched {s t : Stream} (h : Untouched s.world t.world)
    (hmodified : t.modified = s.modified) : Unnoticed rs s t := by
  refine ⟨fun _ => ?_, fun ht => hmodified ▸ ht, fun _ _ => .of_sameRows ?_⟩
  · rw [h.catalog]
    exact .refl _
  · rw [h.catalog]
    exact .refl _

theorem unnoticed_sync {s : Stream} (hr : r ∈ rs) (y : Syncer) (svc : Service) :
    Unnoticed rs s ({ s with world := (y.sync svc r s.world).2 }.note (y.sync svc r s.world).1).1 := by
  cases hrun : y.sync svc r s.world with
  | mk result v =>
  rcases result with ⟨e⟩ | d
  · have huntouched := untouched_of_sync hrun
    cases e with
    | failed e => exact .of_untouched huntouched rfl
    | defect d => exact .of_untouched huntouched rfl
  · obtain ⟨u, u', hu, hreconcile, hcatalog⟩ := sync_ok hrun
    have hsame : u.store.catalog = s.world.store.catalog := catalog_of_opened hu
    refine ⟨fun hs => ?_, fun ht => ?_, fun hs ht => ?_⟩
    · rw [← hsame] at hs ⊢
      exact hcatalog ▸ setting_reconcile hs.tables hreconcile
    · exact (Bool.or_eq_false_iff.mp (Bool.or_eq_false_iff.mp ht).1).1
    · obtain ⟨hfirst, hmodified⟩ := Bool.or_eq_false_iff.mp ht
      obtain ⟨-, hadded⟩ := Bool.or_eq_false_iff.mp hfirst
      rw [← hsame] at hs ⊢
      change Displaced rs u.store.catalog v.store.catalog
      rw [hcatalog]
      refine (displaced_of_reconcile hs hreconcile (by simpa using hadded)
        (by simpa using hmodified)).mono ?_
      rintro x hx
      rwa [List.mem_singleton.mp hx]

/-- Whatever is taken from a stream: unless it counts as modified, no more than that some rows made
room for what was listed. -/
theorem unnoticed_takeItem (y : Syncer) (svc : Service) (allowed : Bool) {item : Item}
    (hitem : ∀ r, item = .ok r → r ∈ rs) (s : Stream) :
    Unnoticed rs s (y.takeItem svc allowed s item).1 := by
  cases item with
  | error e =>
      refine .of_untouched ?_ ?_
      · change Untouched s.world (s.refuse _).1.world
        rw [world_refuse]
        exact Chained.refl (R := Untouched) _
      · change (s.refuse _).1.modified = _
        unfold Stream.refuse
        simp only []
        split <;> rfl
  | ok r =>
      unfold takeItem
      simp only []
      split
      · exact Chained.refl (R := Unnoticed rs) s
      · exact unnoticed_sync (hitem r rfl) y svc

theorem readStream_unnoticed {allowed : Bool} {s : Stream}
    (h : y.readStream svc allowed items w = (.ok s, w')) :
    Unnoticed (Listing.ofItems items).repos (Stream.start w) s ∧ s.world = w' := by
  have hread := Reader.readAll_rel (y.streamReader svc allowed)
    (R := Unnoticed (Listing.ofItems items).repos) items
    (fun item hitem => unnoticed_takeItem y svc allowed (by
      rintro r rfl
      exact mem_ofItems.mpr hitem))
    (Stream.start w)
  rw [readStream_eq] at h
  simp only [] at h
  split at h
  · cases h
  · cases h
  · cases h
    exact ⟨hread, rfl⟩

theorem sweepUnseen_quiet (hs : w.store.catalog.Furnished) {keep : List Int}
    (h : y.sweepUnseen svc keep w = (.ok false, w')) :
    SameRows w.store.catalog w'.store.catalog := by
  obtain ⟨ids, hswept, hnone⟩ := sweepUnseen_told hs h
  obtain rfl : ids = [] := by simpa using hnone.symm
  obtain ⟨now, hrepos⟩ := hswept.repos
  refine ⟨fun j => ?_, fun k => ?_⟩
  · rw [hrepos]
    simp
  · rw [hswept.members]
    simp

/-- What a pass from the world `w` leaves out of account, although it happened. -/
inductive Overlooks (y : Syncer) (svc : Service) (w : World) : Prop where
  /-- Something was inserted early, and by the time the batch is compared nothing is left to do. -/
  | inserts {items : List Item} : y.isStreaming = false → y.sourceOf svc = .ok items →
      (planned (y.reading svc w).2.store.catalog svc
        (y.visible (y.reading svc w).2.store.catalog svc (Listing.ofItems items).repos)).hasChanges =
          false →
      ¬SameRows w.store.catalog (y.reading svc w).2.store.catalog → Overlooks y svc w
  /-- Some rows made room, while all that was listed was up to date and nothing was swept. -/
  | rooms {items : List Item} {allowed : Bool} {s : Stream} {u v v' : World} :
      y.isStreaming = true → y.sourceOf svc = .ok items →
      y.allowsPrivate svc w = (.ok allowed, u) →
      y.readStream svc allowed items u = (.ok s, v) → s.modified = false →
      y.sweepUnseen svc s.seen v = (.ok false, v') →
      Displaced (Listing.ofItems items).repos w.store.catalog v.store.catalog →
      ¬SameRows w.store.catalog v.store.catalog → Overlooks y svc w

theorem judge_none {listing : Listing} {sourced : List Repo}
    (h : judge svc listing = .ok (sourced, none)) : sourced = listing.repos := by
  unfold judge at h
  split at h
  · cases h
    rfl
  · simp only [] at h
    split at h
    · cases h
    · cases h

theorem concluded_eq_ok {failure : Option SyncError} (h : .ok () = concluded failure) :
    failure = none := by
  cases failure with
  | none => rfl
  | some e => cases h

/-- A batch pass that ends well has changed something since its listing was read if and only if that
was planned. -/
theorem batch_counts (hc : w.store.catalog.Rooted) (hid : svc.id ≠ 0)
    (h : y.batch svc least w = (.ok (), w')) :
    ∃ items row next, y.sourceOf svc = .ok items ∧
      let c := (y.reading svc w).2.store.catalog
      let counted := (planned c svc (y.visible c svc (Listing.ofItems items).repos)).hasChanges
      (counted = false → SameRows c w'.store.catalog) ∧
      w'.store.catalog.services.get? svc.id = some row ∧ row.lastSyncAt = some y.now ∧
      y.now.add? (Resync.interval y.now svc.lastSyncAt least counted) = some next ∧
      row.nextSyncAt = some next := by
  rcases batch_cases h with ⟨hnot, -⟩ | ⟨-, d, hdone⟩
  · cases hnot
  have hv : (y.reading svc w).2.store.catalog.Furnished :=
    (hc.of_writes (wrote_reading y svc w).catalog).furnished
  obtain ⟨id, row, next, hsame, hrow, hlast, hnext, hdue⟩ := hdone.visited
  obtain ⟨items, sourced, failure, allowed, u, u', hitems, hjudge, hfailure, hsees, hu, hrun,
    hcatalog⟩ := hdone.written
  cases concluded_eq_ok hfailure
  cases judge_none hjudge
  rw [hsees hv] at hrun
  have hcounted := hasChanges_of_applyBatch (hu ▸ hv) hrun
  have hcarried := applyBatch_ok (hu ▸ hv) hid hrun
  rw [hu] at hcounted hcarried
  rw [hsame hid] at hrow
  refine ⟨items, row, next, hitems, fun hquiet => ?_, hrow, hlast, ?_, hdue⟩
  · rw [hcatalog]
    exact hcarried.sameRows hquiet
  · unfold Resync.afterBatch at hnext
    rw [hcounted] at hnext
    exact hnext

/-- Where a streaming pass that ends well counts nothing, some rows may have made room. -/
theorem stream_counts (hs : w.store.catalog.Furnished) (hid : svc.id ≠ 0)
    (h : y.stream svc least w = (.ok (), w')) :
    ∃ items allowed s lost u v v' row next, y.sourceOf svc = .ok items ∧
      y.allowsPrivate svc w = (.ok allowed, u) ∧ y.readStream svc allowed items u = (.ok s, v) ∧
      y.sweepUnseen svc s.seen v = (.ok lost, v') ∧
      (s.modified = false →
        Displaced (Listing.ofItems items).repos w.store.catalog v.store.catalog) ∧
      (lost = false → SameRows v.store.catalog w'.store.catalog) ∧
      w'.store.catalog.services.get? svc.id = some row ∧ row.lastSyncAt = some y.now ∧
      y.now.add? (Resync.interval y.now svc.lastSyncAt least (s.modified || lost)) = some next ∧
      row.nextSyncAt = some next := by
  rw [stream_eq] at h
  obtain ⟨allowed, u, hallowed, h⟩ := bind_ok_iff.mp h
  obtain ⟨items, u', hitems, h⟩ := bind_ok_iff.mp h
  obtain ⟨s, v, hread, h⟩ := bind_ok_iff.mp h
  obtain ⟨lost, v', hsweep, h⟩ := bind_ok_iff.mp h
  obtain ⟨⟨⟩, v'', hvisit, hend⟩ := bind_ok_iff.mp h
  obtain ⟨hsource, rfl⟩ := itemsOf_ok hitems
  have herrors : s.errors = [] ∧ v'' = w' := by
    cases hs : s.errors with
    | nil =>
        rw [hs] at hend
        cases hend
        exact ⟨rfl, rfl⟩
    | cons e es =>
        rw [hs] at hend
        cases hend
  obtain ⟨herrors, rfl⟩ := herrors
  have hsame : u'.store = w.store := (asks_allowsPrivate (R := SameStore) y svc).of_run hallowed
  obtain ⟨hunnoticed, rfl⟩ := readStream_unnoticed hread
  have hu : u'.store.catalog.Furnished := hsame ▸ hs
  have hv := hu.of_sameSetting (hunnoticed.setting hu)
  obtain ⟨ids, hswept⟩ := sweepUnseen_ok hv hsweep
  obtain ⟨id, row, next, hsvc, hrow, hlast, hnext, hdue⟩ := recordVisit_row hvisit
  rw [hsvc hid] at hrow
  refine ⟨items, allowed, s, lost, u', s.world, v', row, next, hsource, hallowed, hread, hsweep,
    fun hquiet => ?_, ?_, hrow, hlast, ?_, hdue⟩
  · rw [← hsame]
    exact hunnoticed.displaced hu hquiet
  · rintro rfl
    exact (sweepUnseen_quiet hv hsweep).trans
      (recordVisit_ok (hv.of_sameSetting hswept.setting) hid hvisit).sameRows
  · unfold Resync.afterStream at hnext
    rw [herrors] at hnext
    simpa using hnext

/-- The pass is followed up as if it had changed something if and only if it has counted something or
the time since the last pass asks for no more. -/
theorem followed_iff {now last next : Instant} {due : Option Instant} {counted : Bool}
    (hnext : now.add? (Resync.interval now (some last) least counted) = some next)
    (hdue : due = some next) :
    due = now.add? least ↔ (counted = false → Resync.backOff now last least = least) := by
  rw [hdue, ← hnext]
  cases counted with
  | true => exact ⟨fun _ h => absurd h (by decide), fun _ => rfl⟩
  | false =>
      refine ⟨fun h _ => Instant.add?_inj hnext h, fun h => ?_⟩
      exact congrArg now.add? (h rfl)

end Syncer

namespace Sample

/-- Whoever inserts early, and makes a batch pass when the clock shows `now`. -/
def eager (items : List Item) (now : Instant) : Syncer :=
  { syncer items with settings := { (syncer items).settings with streamingInsert := true }, now }

def minute : Duration := ⟨60 * Duration.nanosecondsPerSecond⟩

/-- The site once the host was looked at for the first time, and listed nothing. -/
def visited : World :=
  ((eager [] ⟨0⟩).perform (.visit 1 minute) base).2

/-- A day later the host lists a repository. -/
def nextDay : Syncer :=
  eager [.ok (entry "1" "alpha")] ⟨24 * 60 * minute.nanoseconds⟩

end Sample

namespace Catalog

open Effect Syncer

/-- Without early insertion, and with names that are lower-cased the same way everywhere, a pass
takes everything that it does into account. -/
theorem not_overlooks {y : Syncer} {svc : Service} {w : World}
    (hinsert : y.isStreaming = false →
      y.settings.streamingInsert = false ∨ svc.owner?.isSome = true)
    (hnames : y.isStreaming = true → ∀ items, y.sourceOf svc = .ok items → ∀ r, .ok r ∈ items →
      r.deletedAt = none ∧ r.lowerName = Text.Ascii.lower r.name) : ¬Overlooks y svc w := by
  rintro (⟨hmode, -, -, hearly⟩ | ⟨hmode, hsource, -, -, -, -, hrooms, hmoved⟩)
  · have hstill := within_reading_quietly (R := SameStore) (hinsert hmode) w
    rw [show (y.reading svc w).2.store = w.store from hstill] at hearly
    exact hearly (.refl _)
  · rename_i items _ _ _ _ _
    have hnobody : ∀ row, ¬∃ r ∈ (Listing.ofItems items).repos, r.Unseats row := by
      rintro row ⟨r, hr, hunseats⟩
      obtain ⟨hlive, hname⟩ := hnames hmode items hsource r (mem_ofItems.mp hr)
      exact hunseats.unnoticed hlive hname.symm
    have hrows := fun j => (hrooms.rows j).resolve_right
      fun ⟨row, _, _, _, hrow⟩ => hnobody row hrow
    refine hmoved ⟨hrows, fun k => ?_⟩
    by_contra hk
    exact (hrooms.members k hk).2 (hrows k.repo)

/-- A pass that ends well and has changed the catalog since it began is due again after the minimum
interval, unless all it did was to insert early, or to let rows make room for what was up to date:
then it is due as if nothing had changed. -/
theorem followed_up_iff {p : Service → Repo → Prop} {y : Syncer} {svc : Service} {least : Duration}
    {last : Instant} {w w' : World} (hreach : Reachable p w.store.catalog) (hid : svc.id ≠ 0)
    (hlast : svc.lastSyncAt = some last)
    (hrun : (if y.isStreaming then y.stream svc least else y.batch svc least) w = (.ok (), w')) :
    ∃ row, w'.store.catalog.services.get? svc.id = some row ∧ row.lastSyncAt = some y.now ∧
      ((¬SameRows w.store.catalog w'.store.catalog → row.nextSyncAt = y.now.add? least) ↔
        (Overlooks y svc w → Resync.backOff y.now last least = least)) := by
  have hc := hreach.rooted
  cases hmode : y.isStreaming with
  | false =>
      rw [hmode] at hrun
      obtain ⟨items, row, next, hsource, hquiet, hrow, hvisit, hnext, hdue⟩ :=
        batch_counts hc hid hrun
      rw [hlast] at hnext
      refine ⟨row, hrow, hvisit, ?_⟩
      rw [followed_iff hnext hdue]
      constructor
      · rintro hiff (⟨-, hsource', hnone, hearly⟩ | ⟨hstream, -⟩)
        · cases hsource.symm.trans hsource'
          refine hiff (fun hsame => hearly ?_) hnone
          exact hsame.trans (hquiet hnone).symm
        · cases hmode.symm.trans hstream
      · intro hover hchanged hnone
        exact hover (.inserts hmode hsource hnone fun hsame => hchanged (hsame.trans (hquiet hnone)))
  | true =>
      rw [hmode] at hrun
      obtain ⟨items, allowed, s, lost, u, v, v', row, next, hsource, hallowed, hread, hsweep,
        hrooms, hquiet, hrow, hvisit, hnext, hdue⟩ := stream_counts hc.furnished hid hrun
      rw [hlast] at hnext
      refine ⟨row, hrow, hvisit, ?_⟩
      rw [followed_iff hnext hdue]
      constructor
      · rintro hiff (⟨hbatch, -⟩ | ⟨-, hsource', hallowed', hread', hmodified, hsweep', -, hmoved⟩)
        · cases hmode.symm.trans hbatch
        · cases hsource.symm.trans hsource'
          cases hallowed.symm.trans hallowed'
          cases hread.symm.trans hread'
          cases hsweep.symm.trans hsweep'
          refine hiff (fun hsame => hmoved ?_) (Bool.or_eq_false_iff.mpr ⟨hmodified, rfl⟩)
          exact hsame.trans (hquiet rfl).symm
      · intro hover hchanged hnone
        obtain ⟨hmodified, rfl⟩ := Bool.or_eq_false_iff.mp hnone
        exact hover (.rooms hmode hsource hallowed hread hmodified hsweep (hrooms hmodified)
          fun hsame => hchanged (hsame.trans (hquiet rfl)))

theorem followed_up_iff_early :
    let y := Sample.nextDay
    let svc := Sample.hub.visited ⟨0⟩ ⟨0⟩
    ∃ w' row, y.batch svc Sample.minute Sample.visited = (.ok (), w') ∧
      w'.store.catalog.services.get? svc.id = some row ∧ row.lastSyncAt = some y.now ∧
      ((¬SameRows Sample.visited.store.catalog w'.store.catalog →
          row.nextSyncAt = y.now.add? Sample.minute) ↔
        (Overlooks y svc Sample.visited →
          Resync.backOff y.now ⟨0⟩ Sample.minute = Sample.minute)) := by
  intro y svc
  have hreach : Reachable (fun _ _ => True) Sample.visited.store.catalog :=
    .pass _ _ (.start rfl rfl Sample.furnished_base) fun _ _ _ _ _ _ _ => trivial
  have hok : (y.batch svc Sample.minute Sample.visited).1.isOk = true := by decide +kernel
  obtain ⟨⟨⟩, hrun⟩ := exists_of_isOk hok
  obtain ⟨row, hrow, hlast, hiff⟩ := followed_up_iff (y := y) hreach (by decide) rfl hrun
  exact ⟨_, row, hrun, hrow, hlast, hiff⟩

/-- The new repository is in the catalog, and yet the host is left alone for eight hours. -/
theorem early_insert_not_followed_up :
    ∃ w' row old, Sample.nextDay.syncService 1 Sample.minute Sample.visited = (.ok (), w') ∧
      Sample.visited.store.catalog.services.get? 1 = some old ∧ old.lastSyncAt = some ⟨0⟩ ∧
      Sample.visited.store.catalog.repos.get? 1 = none ∧
      (∃ new, w'.store.catalog.repos.get? 1 = some new ∧ new.isLive = true) ∧
      w'.store.catalog.services.get? 1 = some row ∧ row.lastSyncAt = some Sample.nextDay.now ∧
      row.nextSyncAt = Sample.nextDay.now.add? Resync.longest ∧
      row.nextSyncAt ≠ Sample.nextDay.now.add? Sample.minute := by
  have hok : (Sample.nextDay.syncService 1 Sample.minute Sample.visited).1.isOk = true := by
    decide +kernel
  have hbefore : (Sample.visited.store.catalog.services.get? 1).map (·.lastSyncAt) =
      some (some ⟨0⟩) ∧ Sample.visited.store.catalog.repos.get? 1 = none := by decide +kernel
  have hafter : let d := (Sample.nextDay.syncService 1 Sample.minute Sample.visited).2.store.catalog
      (d.repos.get? 1).map (·.isLive) = some true ∧
      (d.services.get? 1).map (fun row => (row.lastSyncAt, row.nextSyncAt)) =
        some (some Sample.nextDay.now, Sample.nextDay.now.add? Resync.longest) := by decide +kernel
  have hlong : Sample.nextDay.now.add? Resync.longest ≠ Sample.nextDay.now.add? Sample.minute := by
    decide +kernel
  obtain ⟨old, hold, hlast⟩ := Option.map_eq_some_iff.mp hbefore.1
  obtain ⟨new, hnew, hlive⟩ := Option.map_eq_some_iff.mp hafter.1
  obtain ⟨row, hrow, htimes⟩ := Option.map_eq_some_iff.mp hafter.2
  obtain ⟨hvisit, hdue⟩ := Prod.mk.inj htimes
  obtain ⟨⟨⟩, hrun⟩ := exists_of_isOk hok
  exact ⟨_, row, old, hrun, hold, hlast, hbefore.2, ⟨new, hnew, hlive⟩, hrow, hvisit, hdue,
    hdue ▸ hlong⟩

end Catalog

end RepoCatalog
