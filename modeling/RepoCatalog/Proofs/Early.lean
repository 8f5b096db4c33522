import RepoCatalog.Proofs.AllOrNothing
import RepoCatalog.Proofs.Unhindered

/-!
# Early insertion

While a listing is read, a service of the site may insert what is clearly new: the first entry of an
identity, if no live row has its identity or its name and a row can be had for it. Everything that
was live stays as it is.
-/
namespace RepoCatalog

open Step

namespace Catalog

variable {c d : Catalog} {svc : Service} {r x : Repo} {y : Syncer}

/-- Whether a listed repository is clearly new, and a row can be had for it: a tombstone of an empty
identity is never taken over. -/
structure Welcomes (c : Catalog) (r : Repo) : Prop where
  new : ∀ j row, c.repos.get? j = some row → row.isLive = true → meets r row = false
  home : r.spec.isEmpty = true → ∀ j row, c.repos.get? j = some row → row.spec ≠ r.spec

theorem Welcomes.clear (h : c.Welcomes r) (hc : c.Rooted) (hfinds : c.Finds r) (y : Syncer) :
    c.Clear { y.asNew r with deletedAt := none } := by
  refine ⟨.inl rfl, fun j row hrow hspec => ?_, fun _ j row hrow hlive hkey => ?_⟩
  · have hnonempty : r.spec.isEmpty = false := by
      rw [← Bool.not_eq_true]
      exact fun hempty => h.home hempty j row hrow hspec
    exact (targetOf_of_spec (r := { y.asNew r with deletedAt := none }) rfl hnonempty hrow hspec
      (Int.ne_of_gt (hc.ids j row hrow))).symm
  · cases (h.new j row hrow hlive).symm.trans (hfinds j row hrow hlive hkey)

theorem Joined.welcomes (h : Joined c svc { y.asNew r with deletedAt := none } x d)
    (hnew : ∀ j row, c.repos.get? j = some row → row.isLive = true → meets r row = false) :
    c.Welcomes r := by
  refine ⟨hnew, fun hempty j row hrow hspec => ?_⟩
  obtain ⟨e, hsaved, -⟩ := h.saved
  have hj := hsaved.ownSpec j row hrow hspec
  have htarget : c.targetOf { y.asNew r with deletedAt := none } = c.repos.nextId := by
    have hnobody : c.heirOf? r.spec = none := if_pos hempty
    unfold targetOf addressed
    simp only [Syncer.asNew, hnobody, if_true]
  rw [hsaved.target, htarget] at hj
  rw [hj, Table.get?_nextId] at hrow
  cases hrow

theorem Joined.kept (h : Joined c svc { y.asNew r with deletedAt := none } x d)
    (hwelcome : c.Welcomes r) {j : Int} {row : RepoRow} (hrow : c.repos.get? j = some row)
    (hlive : row.isLive = true) : d.repos.get? j = some row ∧
      ∀ s, d.members.get? ⟨j, s⟩ = c.members.get? ⟨j, s⟩ := by
  have hj : j ≠ x.id := by
    rintro rfl
    obtain ⟨e, hsaved, -⟩ := h.saved
    have hspec : row.spec = r.spec := (hsaved.placed (.inl rfl)).home row hrow
    cases (hwelcome.new x.id row hrow hlive).symm.trans (meets_iff.mpr (.inr hspec))
  refine ⟨(h.row_of_ne hj).trans hrow, fun s => h.member_of_ne fun hk => hj ?_⟩
  exact congrArg MemberKey.repo hk

theorem Joined.stands_new (h : Joined c svc { y.asNew r with deletedAt := none } x d) :
    d.Stands svc r x.id := by
  obtain ⟨claim, hclaim, -⟩ := h.member
  refine h.stands rfl hclaim ?_
  unfold Repo.faceFor
  rw [show r.claims.get? svc.urn = some claim from hclaim]
  rfl

/-- Whether an entry is inserted early, as far as what was in the catalog before tells: it is the
first of its identity to arrive, and it is welcome. -/
structure Heralds (c : Catalog) (sourced : List Repo) (r : Repo) : Prop where
  first : sourced.find? (·.spec == r.spec) = some r
  welcome : c.Welcomes r

theorem heralds_cons {rs : List Repo} : c.Heralds (r :: rs) x ↔
    c.Welcomes x ∧ (if r.spec = x.spec then r = x else rs.find? (·.spec == x.spec) = some x) := by
  by_cases hspec : r.spec = x.spec
  · have hfind : (r :: rs).find? (·.spec == x.spec) = some r :=
      List.find?_cons_of_pos (beq_iff_eq.mpr hspec)
    rw [if_pos hspec]
    exact ⟨fun ⟨hfirst, hwelcome⟩ => ⟨hwelcome, Option.some_inj.mp (hfind.symm.trans hfirst)⟩,
      fun ⟨hwelcome, heq⟩ => ⟨hfind.trans (congrArg some heq), hwelcome⟩⟩
  · have hfind : (r :: rs).find? (·.spec == x.spec) = rs.find? (·.spec == x.spec) :=
      List.find?_cons_of_neg (mt beq_iff_eq.mp hspec)
    rw [if_neg hspec]
    exact ⟨fun ⟨hfirst, hwelcome⟩ => ⟨hwelcome, hfind.symm.trans hfirst⟩,
      fun ⟨hwelcome, hfirst⟩ => ⟨hfind.trans hfirst, hwelcome⟩⟩

theorem heralds_cons_of_ne {rs : List Repo} (hne : r.spec ≠ x.spec) :
    c.Heralds (r :: rs) x ↔ c.Heralds rs x := by
  rw [heralds_cons, if_neg hne]
  exact ⟨fun ⟨hwelcome, hfirst⟩ => ⟨hfirst, hwelcome⟩,
    fun ⟨hfirst, hwelcome⟩ => ⟨hwelcome, hfirst⟩⟩

/-- An entry that is not welcome keeps all later ones of its identity from being inserted. -/
theorem heralds_cons_of_unwelcome {rs : List Repo} (hnot : ¬c.Welcomes r) :
    c.Heralds (r :: rs) x ↔ c.Heralds rs x ∧ x.spec ≠ r.spec := by
  by_cases hspec : r.spec = x.spec
  · rw [heralds_cons, if_pos hspec]
    exact ⟨fun ⟨hwelcome, heq⟩ => (hnot (heq ▸ hwelcome)).elim,
      fun ⟨_, hne⟩ => (hne hspec.symm).elim⟩
  · rw [heralds_cons_of_ne hspec]
    exact ⟨fun hx => ⟨hx, Ne.symm hspec⟩, And.left⟩

end Catalog

namespace Syncer

open Effect Catalog

variable {y : Syncer} {svc : Service} {r : Repo} {w : World}

theorem thrives_reconcileNew (hc : w.store.catalog.Rooted)
    (hsvc : w.store.catalog.services.contains svc.id = true)
    (hclaim : (r.claims.get? svc.urn).isSome = true) (hfinds : w.store.catalog.Finds r)
    (hwelcome : w.store.catalog.Welcomes r) : Thrives w (y.reconcileNew svc r) := by
  have hs := hc.furnished
  have hclear := hwelcome.clear hc hfinds y
  have hnobody : (w.store.catalog.seen fun _ row => row.isLive && meets r row) = [] := by
    refine List.eq_nil_iff_forall_not_mem.mpr fun x hx => ?_
    obtain ⟨row, hrow, hmatch, -⟩ := mem_seen.mp hx
    obtain ⟨hlive, hmeets⟩ := Bool.and_eq_true_iff.mp hmatch
    cases (hwelcome.new x.id row hrow hlive).symm.trans hmeets
  unfold reconcileNew
  refine (thrives_store _ _ (run_liveTwins hs r)).bind fun known v hlist => ?_
  obtain ⟨hknown, hv⟩ := Prod.mk.inj ((run_liveTwins hs r).symm.trans (store_ok hlist))
  cases hknown
  rw [hnobody]
  rw [hv] at hs hsvc hclear
  exact thrives_introduce hs hsvc hclaim hclear

/-- What comes of one early insertion: a repository that is welcome is brought in, and for any other
nothing happens. -/
inductive Inserted (y : Syncer) (svc : Service) (r : Repo) (w v : World) : Prop
  | sown {x : Repo} : w.store.catalog.Welcomes r →
      Joined w.store.catalog svc { y.asNew r with deletedAt := none } x v.store.catalog →
      Inserted y svc r w v
  | held : ¬w.store.catalog.Welcomes r → v.store.catalog = w.store.catalog →
      v.published = w.published → Inserted y svc r w v

theorem Inserted.setting {v : World} (h : Inserted y svc r w v) :
    SameSetting w.store.catalog v.store.catalog := by
  cases h with
  | sown hwelcome hjoined => exact hjoined.setting
  | held hnot hsame hquiet =>
      rw [hsame]
      exact .refl _

theorem inserted (hw : w.Calm) (hc : w.store.catalog.Rooted)
    (hsvc : w.store.catalog.services.contains svc.id = true)
    (hclaim : (r.claims.get? svc.urn).isSome = true) (hfinds : w.store.catalog.Finds r)
    (y : Syncer) : Inserted y svc r w (y.insertIfNew svc r w).2 := by
  have hs := hc.furnished
  have hsaved := saved_reconcileNew y svc r
  have hsilent : Within Silent (transaction .ofStore (y.reconcileNew svc r)) :=
    outward_transaction (admits_reconcileNew (p := fun _ => True) y svc trivial)
  unfold insertIfNew
  cases hrun : transaction .ofStore (y.reconcileNew svc r) w with
  | mk result u =>
  have hquiet : u.published = w.published := hsilent.of_run hrun
  cases result with
  | ok d =>
      rw [bind_of_ok hrun]
      have hstill := still_publishSome y d u
      obtain ⟨v, v', hv, hbody, hcatalog⟩ := transaction_ok hsaved hrun
      have hsame : v.store.catalog = w.store.catalog := catalog_of_opened hv
      rw [← hsame] at hs
      rcases reconcileNew_inv hs hbody with ⟨hstore, rfl, j, row, hrow, hlive, hmeets⟩ |
        ⟨hnew, x, hjoined, -⟩
      · refine .held (fun hwelcome => ?_) ?_ hquiet
        · rw [hsame] at hrow
          cases (hwelcome.new j row hrow hlive).symm.trans hmeets
        · exact hcatalog.trans ((congrArg Store.catalog hstore).trans hsame)
      · have hwelcome := hjoined.welcomes hnew
        rw [hsame, ← hcatalog, ← show _ = u.store.catalog from congrArg Store.catalog hstill]
          at hjoined
        exact .sown (hsame ▸ hwelcome) hjoined
  | error e =>
      rw [bind_of_error hrun]
      refine .held (fun hwelcome => ?_) ((transacted hsaved hrun).restored e rfl) hquiet
      have hbody : ∀ v : World, v.store = opened w.store → Thrives v (y.reconcileNew svc r) := by
        intro v hv
        have hsame : v.store.catalog = w.store.catalog := catalog_of_opened hv
        rw [← hsame] at hc hsvc hfinds hwelcome
        exact thrives_reconcileNew hc hsvc hclaim hfinds hwelcome
      have hlift : ∀ e, ∃ context, SyncError.ofStore e = .store context e := fun e => ⟨_, rfl⟩
      rcases thrives_transaction hlift hbody with
        ⟨d, v, hok, -⟩ | ⟨context, e', v, -, hthreat⟩
      · cases hrun.symm.trans hok
      · exact hw.not_threatened e' hthreat

/-- How a listing is read that is inserted early: `known` are the identities that need no insertion
any more. -/
inductive Sown (y : Syncer) (svc : Service) : List Repo → List Spec → World → World → Prop
  | nil (known : List Spec) (w : World) : Sown y svc [] known w w
  | known {r : Repo} {rs : List Repo} {known : List Spec} {w v : World} :
      r.spec ∈ known → Sown y svc rs known w v → Sown y svc (r :: rs) known w v
  | next {r : Repo} {rs : List Repo} {known : List Spec} {w u v : World} :
      r.spec ∉ known → Inserted y svc r w u → Sown y svc rs (r.spec :: known) u v →
        Sown y svc (r :: rs) known w v

/-- What a service needs in order to bring up a listing without any error. -/
structure Ready (svc : Service) (sourced : List Repo) (w : World) : Prop where
  calm : w.Calm
  rooted : w.store.catalog.Rooted
  holds : w.store.catalog.services.contains svc.id = true
  claims : ∀ r ∈ sourced, (r.claims.get? svc.urn).isSome = true
  names : ∀ r ∈ sourced, r.lowerName = Text.Ascii.lower r.name

theorem ready_of_listed {sourced : List Repo} (hw : w.Calm) (hc : w.store.catalog.Rooted)
    (hsvc : w.store.catalog.Holds svc) (hlisted : ∀ r ∈ sourced, r.ListedBy svc)
    (hnames : ∀ r ∈ sourced, Text.IsAscii r.name) : Ready svc sourced w where
  calm := hw
  rooted := hc
  holds := hsvc.contains
  claims r hr := by
    obtain ⟨url, hclaim⟩ := Repo.claim_of_solo (hlisted r hr).claims
    exact Option.isSome_of_eq_some hclaim
  names r hr := Text.lowerCase_of_ascii (hnames r hr)

theorem Ready.insertIfNew {rs : List Repo} (hw : Ready svc (r :: rs) w) (y : Syncer) :
    Inserted y svc r w (y.insertIfNew svc r w).2 ∧ Ready svc rs (y.insertIfNew svc r w).2 := by
  have hcalmly : Within Calmly (y.insertIfNew svc r) :=
    admits_insertIfNew (p := fun _ => True) (calmly_publish y) trivial
  have hinserted := inserted hw.calm hw.rooted hw.holds (hw.claims r List.mem_cons_self)
    (finds_of_lowerName _ (hw.names r List.mem_cons_self)) y
  exact ⟨hinserted, hcalmly w hw.calm, hw.rooted.of_writes (wrote_insertIfNew y svc r w).catalog,
    hinserted.setting.services ▸ hw.holds, fun x hx => hw.claims x (List.mem_cons_of_mem r hx),
    fun x hx => hw.names x (List.mem_cons_of_mem r hx)⟩

theorem run_listingHook (y : Syncer) (svc : Service) (r : Repo) (known : List Spec) (w : World) :
    y.listingHook svc r ⟨w, none, some known⟩ = (.ok (),
      if r.spec ∈ known then ⟨w, none, some known⟩
      else ⟨(y.insertIfNew svc r w).2, none, some (r.spec :: known)⟩) := by
  unfold listingHook countListed insertEarly
  rw [bind_of_ok (by rfl)]
  simp only []
  split
  · rfl
  · have hdefect := isError_insertIfNew y svc r w
    unfold attempt
    cases hrun : y.insertIfNew svc r w with
    | mk outcome v =>
        rw [hrun] at hdefect
        cases outcome with
        | ok u => rfl
        | error e =>
            cases e with
            | failed e => rfl
            | defect d => exact (hdefect _ _ rfl).elim

theorem sown_readAll {sourced : List Repo} (y : Syncer) (hw : Ready svc sourced w)
    (known : List Spec) (p : Listing.Progress Reading (Abort SyncError))
    (hp : p.state = ⟨w, none, some known⟩) :
    ∃ v known', ((Listing.collector (y.listingHook svc) fun r => r.world.isCancelled).readAll p
      (sourced.map .ok)).1.state = ⟨v, none, some known'⟩ ∧ Sown y svc sourced known w v := by
  induction sourced generalizing w known p with
  | nil => exact ⟨w, known, hp, .nil known w⟩
  | cons r rs ih =>
      obtain ⟨state, listing, failure⟩ := p
      obtain rfl : state = _ := hp
      have hgoing : ¬w.isCancelled = true := Bool.eq_false_iff.mp hw.calm.going
      have hrun := run_listingHook y svc r known w
      rw [List.map_cons, Reader.readAll_cons (by exact hgoing), Listing.receive_of_taken hrun,
        if_pos rfl]
      obtain ⟨hinserted, hnext⟩ := hw.insertIfNew y
      by_cases hknown : r.spec ∈ known
      · obtain ⟨v, known', hstate, hsown⟩ := ih
          ⟨hw.calm, hw.rooted, hw.holds, fun x hx => hw.claims x (List.mem_cons_of_mem r hx),
            fun x hx => hw.names x (List.mem_cons_of_mem r hx)⟩ known
          ⟨⟨w, none, some known⟩, ⟨listing.repos ++ [r], listing.errors⟩, failure⟩ rfl
        refine ⟨v, known', ?_, .known hknown hsown⟩
        rw [if_pos hknown]
        exact hstate
      · obtain ⟨v, known', hstate, hsown⟩ := ih hnext (r.spec :: known)
          ⟨⟨(y.insertIfNew svc r w).2, none, some (r.spec :: known)⟩,
            ⟨listing.repos ++ [r], listing.errors⟩, failure⟩ rfl
        refine ⟨v, known', ?_, .next hknown hinserted hsown⟩
        rw [if_neg hknown]
        exact hstate

theorem run_knownFor (hw : w.Calm) (hs : w.store.catalog.Furnished)
    (hinsert : y.settings.streamingInsert = true) : ∃ known,
      y.knownFor none w = (.ok (some known), w) ∧ ∀ spec, spec ∈ known ↔
        ∃ j row, w.store.catalog.repos.get? j = some row ∧ row.isLive = true ∧ row.spec = spec := by
  unfold knownFor
  rw [if_pos (by rw [hinsert]; rfl)]
  have hspecs : Store.listSpecs w.store = _ := Store.run_read hs.tables _ _
  refine ⟨_, bind_of_ok (run_store hw.faults _ _ hspecs), fun spec => ?_⟩
  have hkeys : ((w.store.catalog.repos.toList.filter fun e => e.2.isLive).map
      fun e => (e.2.spec, ())) =
        ((w.store.catalog.repos.toList.filter fun e => e.2.isLive).map fun e => e.2.spec).map
          fun k => (k, ()) := by
    rw [List.map_map]
    rfl
  change spec ∈ (Dict.ofList ((w.store.catalog.repos.toList.filter fun e => e.2.isLive).map
    fun e => (e.2.spec, ()))).keys ↔ _
  rw [hkeys, Dict.mem_keys_ofList_unit]
  simp only [List.mem_map, List.mem_filter, Prod.exists]
  constructor
  · rintro ⟨j, row, ⟨hmem, hlive⟩, hspec⟩
    exact ⟨j, row, Table.get?_eq_some_iff.mpr hmem, hlive, hspec⟩
  · rintro ⟨j, row, hrow, hlive, hspec⟩
    exact ⟨j, row, ⟨Table.get?_eq_some_iff.mp hrow, hlive⟩, hspec⟩

/-- A service of the site that inserts early reads a listing by inserting it, entry by entry; what
is live already is known. -/
theorem sown_reading {sourced : List Repo} (hw : Ready svc sourced w) (howner : svc.owner? = none)
    (hinsert : y.settings.streamingInsert = true)
    (hsource : y.sourceOf svc = .ok (sourced.map .ok)) : ∃ known,
      (∀ spec, spec ∈ known ↔
        ∃ j row, w.store.catalog.repos.get? j = some row ∧ row.isLive = true ∧ row.spec = spec) ∧
      Sown y svc sourced known w (y.reading svc w).2 := by
  obtain ⟨known, hrun, hknown⟩ := run_knownFor hw.calm hw.rooted.furnished hinsert
  obtain ⟨v, known', hstate, hsown⟩ := sown_readAll y hw known
    ⟨⟨w, none, some known⟩, .empty, none⟩ rfl
  refine ⟨known, hknown, ?_⟩
  have hend : (y.reading svc w).2 = v := by
    unfold reading
    rw [bind_of_ok (run_counterFor_of_site howner w), bind_of_ok hrun,
      bind_of_ok (run_itemsOf hsource w)]
    exact congrArg Reading.world ((Listing.state_collect _ _ _ _ _ _).trans hstate)
  rw [hend]
  exact hsown

section

variable {sourced : List Repo} {known : List Spec} {v : World}

theorem Inserted.kept (h : Inserted y svc r w v) {j : Int} {row : RepoRow}
    (hrow : w.store.catalog.repos.get? j = some row) (hlive : row.isLive = true) :
    v.store.catalog.repos.get? j = some row ∧ ∀ s,
      v.store.catalog.members.get? ⟨j, s⟩ = w.store.catalog.members.get? ⟨j, s⟩ := by
  cases h with
  | sown hwelcome hjoined => exact hjoined.kept hwelcome hrow hlive
  | held hnot hsame hquiet =>
      rw [hsame]
      exact ⟨hrow, fun _ => rfl⟩

theorem Sown.kept (h : Sown y svc sourced known w v) {j : Int} {row : RepoRow}
    (hrow : w.store.catalog.repos.get? j = some row) (hlive : row.isLive = true) :
    v.store.catalog.repos.get? j = some row ∧ ∀ s,
      v.store.catalog.members.get? ⟨j, s⟩ = w.store.catalog.members.get? ⟨j, s⟩ := by
  induction h with
  | nil known w => exact ⟨hrow, fun _ => rfl⟩
  | known hknown hrest ih => exact ih hrow
  | next hnew hinserted hrest ih =>
      obtain ⟨hfirst, hmembers⟩ := hinserted.kept hrow hlive
      obtain ⟨hlast, hmembers'⟩ := ih hfirst
      exact ⟨hlast, fun s => (hmembers' s).trans (hmembers s)⟩

/-- Either nothing is inserted and nothing is told, and then no entry was to be, or some entry was to
be inserted and has a live row in the end. -/
theorem Sown.cases (h : Sown y svc sourced known w v) :
    ((∀ r, w.store.catalog.Heralds sourced r → r.spec ∈ known) ∧
      v.store.catalog = w.store.catalog ∧ v.published = w.published) ∨
    ∃ r, w.store.catalog.Heralds sourced r ∧ r.spec ∉ known ∧
      ∃ j row, v.store.catalog.repos.get? j = some row ∧ row.isLive = true ∧ row.spec = r.spec := by
  induction h with
  | nil known w => exact .inl ⟨fun r hr => (by cases hr.first), rfl, rfl⟩
  | @known r rs known w v hknown hrest ih =>
      -- Entries of a known identity are not looked at.
      have hiff : ∀ x, x.spec ∉ known →
          (w.store.catalog.Heralds (r :: rs) x ↔ w.store.catalog.Heralds rs x) :=
        fun x hx => heralds_cons_of_ne fun heq => hx (heq ▸ hknown)
      refine ih.imp (And.imp_left fun hall x hx => ?_) fun ⟨x, hx, hnew, hrow⟩ =>
        ⟨x, (hiff x hnew).mpr hx, hnew, hrow⟩
      by_contra hnew
      exact hnew (hall x ((hiff x hnew).mp hx))
  | @next r rs known w u v hnew hinserted hrest ih =>
      cases hinserted with
      | sown hwelcome hjoined =>
          obtain ⟨row, hrow, hlive, -, hspec⟩ := hjoined.stands_new.row
          exact .inr ⟨r, heralds_cons.mpr ⟨hwelcome, by rw [if_pos rfl]⟩, hnew, _, row,
            (hrest.kept hrow hlive).1, hlive, hspec⟩
      | held hnot hsame hquiet =>
          rw [hsame, hquiet] at ih
          refine ih.imp (And.imp_left fun hall x hx => ?_) fun ⟨x, hx, hother, hrow⟩ => ?_
          · obtain ⟨hx', hne⟩ := (heralds_cons_of_unwelcome hnot).mp hx
            exact (List.mem_cons.mp (hall x hx')).resolve_left hne
          · rw [List.mem_cons, not_or] at hother
            exact ⟨x, (heralds_cons_of_unwelcome hnot).mpr ⟨hx, hother.1⟩, hother.2, hrow⟩

end

end Syncer

end RepoCatalog
