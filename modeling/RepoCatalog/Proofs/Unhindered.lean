import RepoCatalog.Proofs.Names

/-!
# Nothing stands in the way

A service of the site may bring up any repository whose name is found under its key: of the rows in
the catalog at most two stand in the way, the one makes room, and what is written then breaks no
rule. So the only errors are those of faults that were to come anyway, and in the end one live row
has the name.
-/
namespace RepoCatalog

open Step

namespace Fault

theorem origin_of_strike (operation : StoreOperation) (faults : List Fault) :
    (∀ f ∈ (strike operation faults).1, ∃ g ∈ faults, g.error = f.error) ∧
      ∀ f, (strike operation faults).2 = some f → f ∈ faults := by
  induction faults with
  | nil => exact ⟨fun f hf => (by cases hf), fun f hf => (by cases hf)⟩
  | cons g gs ih =>
      have hstays : ∀ f ∈ gs, ∃ g' ∈ g :: gs, g'.error = f.error :=
        fun f hf => ⟨f, List.mem_cons_of_mem g hf, rfl⟩
      unfold strike
      split
      · split
        · refine ⟨hstays, fun f hf => ?_⟩
          cases hf
          exact List.mem_cons_self
        · refine ⟨fun f hf => ?_, fun f hf => (by cases hf)⟩
          rcases List.mem_cons.mp hf with rfl | hf
          · exact ⟨g, List.mem_cons_self, rfl⟩
          · exact hstays f hf
      · refine ⟨fun f hf => ?_, fun f hf => List.mem_cons_of_mem g (ih.2 f hf)⟩
        rcases List.mem_cons.mp hf with rfl | hf
        · exact ⟨f, List.mem_cons_self, rfl⟩
        · obtain ⟨g', hg', herror⟩ := ih.1 f hf
          exact ⟨g', List.mem_cons_of_mem g hg', herror⟩

end Fault

/-- Some operation is yet to fail with this error. -/
def World.Threatened (w : World) (e : StoreError) : Prop :=
  ∃ f ∈ w.faults, f.error = some e

theorem World.Calm.not_threatened {w : World} (hw : w.Calm) (e : StoreError) :
    ¬w.Threatened e := by
  rintro ⟨f, hf, -⟩
  rw [hw.faults] at hf
  cases hf

namespace Effect

variable {α β : Type} {w v : World}

/-- Nothing is to come that was not to come before. -/
def Spent (w w' : World) : Prop :=
  ∀ e, w'.Threatened e → w.Threatened e

theorem faults_call (operation : StoreOperation) (step : StoreM α) (w : World) :
    (call operation step w).2.faults = (Fault.strike operation w.faults).1 := by
  have hof : ∀ v : World, (ofStore step v).2.faults = v.faults := by
    intro v
    unfold ofStore
    split <;> rfl
  unfold call
  simp only []
  split
  · exact hof _
  · split
    · rfl
    · exact hof _

instance : Outward Spent where
  refl _ _ h := h
  trans h h' e he := h e (h' e he)
  store _ _ _ h := h
  call operation step := by
    rintro w e ⟨f, hf, herror⟩
    rw [faults_call] at hf
    obtain ⟨g, hg, hsame⟩ := (Fault.origin_of_strike operation w.faults).1 f hf
    exact ⟨g, hg, hsame.trans herror⟩

/-- The effect ends well, unless a fault that is to come strikes. -/
def Thrives (w : World) (x : Pass α) : Prop :=
  (∃ a v, x w = (.ok a, v) ∧ Spent w v) ∨
    ∃ context e v, x w = (.error (.failed (.store context e)), v) ∧ w.Threatened e

theorem Thrives.pure (a : α) : Thrives w (Pure.pure a : Pass α) :=
  .inl ⟨a, w, rfl, Chained.refl w⟩

theorem Thrives.bind {x : Pass α} {f : α → Pass β} (hx : Thrives w x)
    (hf : ∀ a v, x w = (.ok a, v) → Thrives v (f a)) : Thrives w (x >>= f) := by
  rcases hx with ⟨a, v, hrun, hspent⟩ | ⟨context, e, v, hrun, hthreat⟩
  · rcases hf a v hrun with ⟨b, u, hrest, hspent'⟩ | ⟨context, e, u, hrest, hthreat⟩
    · exact .inl ⟨b, u, (bind_of_ok hrun).trans hrest, Chained.trans hspent hspent'⟩
    · exact .inr ⟨context, e, u, (bind_of_ok hrun).trans hrest, hspent e hthreat⟩
  · exact .inr ⟨context, e, v, bind_of_error hrun, hthreat⟩

theorem call_thrives (operation : StoreOperation) {x : StoreM α} {a : α} {s : Store}
    (h : x w.store = (.ok a, s)) :
    (∃ v, call operation x w = (.ok a, v) ∧ Spent w v) ∨
      ∃ e v, call operation x w = (.error (.failed e), v) ∧ w.Threatened e := by
  have hspent : Spent w (call operation x w).2 := Outward.call operation x w
  have hstruck := (Fault.origin_of_strike operation w.faults).2
  have hof : ∀ v : World, v.store = w.store → (ofStore x v).1 = .ok a := by
    intro v hv
    unfold ofStore
    rw [hv, h]
  have hends : (call operation x w).1 = .ok a ∨
      ∃ e, (call operation x w).1 = .error (.failed e) ∧ w.Threatened e := by
    unfold call
    simp only []
    split
    · exact .inl (hof _ rfl)
    · rename_i fault hfault
      split
      · rename_i e he
        exact .inr ⟨e, rfl, fault, hstruck fault hfault, he⟩
      · exact .inl (hof _ rfl)
  rcases hends with hok | ⟨e, he, hthreat⟩
  · exact .inl ⟨_, Prod.ext hok rfl, hspent⟩
  · exact .inr ⟨e, _, Prod.ext he rfl, hthreat⟩

theorem thrives_store (context : String) (operation : StoreOperation) {step : StoreM α} {a : α}
    {s : Store} (h : step w.store = (.ok a, s)) : Thrives w (store context operation step) := by
  unfold store
  rcases call_thrives operation h with ⟨v, hcall, hspent⟩ | ⟨e, v, hcall, hthreat⟩
  · exact .inl ⟨a, v, run_mapError_ok.mpr hcall, hspent⟩
  · refine .inr ⟨context, e, v, ?_, hthreat⟩
    unfold mapError
    rw [hcall]

theorem thrives_commit {lift : StoreError → SyncError}
    (hlift : ∀ e, ∃ context, lift e = .store context e) (w : World) :
    Thrives w (commit.mapError lift) := by
  have hcommit : Spent w (commit w).2 := outward_commit w
  rcases call_thrives (w := w) (α := Unit) .commit (x := Store.commit) rfl with
    ⟨v, hcall, -⟩ | ⟨e, v, hcall, hthreat⟩
  · have hrun : commit w = (.ok (), v) := by
      unfold commit
      rw [hcall]
    rw [hrun] at hcommit
    exact .inl ⟨(), v, run_mapError_ok.mpr hrun, hcommit⟩
  · obtain ⟨context, hsame⟩ := hlift e
    refine .inr ⟨context, e, abandon v, ?_, hthreat⟩
    unfold mapError commit
    rw [hcall, ← hsame]

theorem run_rollback_report (e : SyncError) (w : World) :
    ((rollback.ignore : Pass Unit) >>= fun _ => (fail e : Pass α)) w =
      (.error (.failed e), (rollback w).2) := by
  unfold ignore attempt
  rw [run_bind, run_bind]
  cases hrun : rollback w with
  | mk r v =>
      cases r with
      | ok a => rfl
      | error e' =>
          cases e' with
          | failed e' => rfl
          | defect d => exact (fails_rollback w _ _ hrun).elim

theorem thrives_transaction {lift : StoreError → SyncError}
    (hlift : ∀ e, ∃ context, lift e = .store context e) {body : Pass α}
    (hbody : ∀ v, v.store = opened w.store → Thrives v body) :
    Thrives w (transaction lift body) := by
  rcases call_thrives (w := w) (α := Unit) .begin (x := Store.begin) rfl with
    ⟨v, hbegin, hspent⟩ | ⟨e, v, hbegin, hthreat⟩
  · have hstep : ((.ok (), opened w.store) : Except StoreError Unit × Store) = (.ok (), v.store) :=
      call_ok hbegin
    unfold Thrives
    rw [run_transaction hbegin]
    rcases hbody v (Prod.mk.inj hstep).2.symm with
      ⟨a, u, hrun, hspent'⟩ | ⟨context, e, u, hrun, hthreat⟩
    · rw [hrun]
      rcases (thrives_commit hlift u).bind fun _ _ _ => .pure a with
        ⟨b, u', hend, hspent''⟩ | ⟨context, e, u', hend, hthreat⟩
      · exact .inl ⟨b, u', hend, Chained.trans hspent (Chained.trans hspent' hspent'')⟩
      · exact .inr ⟨context, e, u', hend, hspent e (hspent' e hthreat)⟩
    · rw [hrun]
      exact .inr ⟨context, e, _, run_rollback_report _ u, hspent e hthreat⟩
  · refine .inr ⟨"opening transaction", e, v, ?_, hthreat⟩
    unfold transaction store
    refine bind_of_error ?_
    unfold mapError
    rw [hbegin]

end Effect

namespace Store

open Catalog

variable {s : Store} {svc : Service} {r : Repo}

theorem saved_total (hs : s.catalog.Furnished)
    (hsvc : s.catalog.services.contains svc.id = true)
    (hclaim : (r.claims.get? svc.urn).isSome = true) (hclear : s.catalog.Clear r) :
    ∃ url r' t u, cloneUrlOf svc r s = (.ok url, s) ∧ saveRepo r s = (.ok r', t) ∧
      (r.id ≠ 0 → r'.id = r.id) ∧ putMember svc.id r'.id url svc.owner? t = (.ok (), u) := by
  obtain ⟨claim, hclaim⟩ := Option.isSome_iff_exists.mp hclaim
  have hurl : cloneUrlOf svc r s = (.ok claim.cloneUrl, s) := by
    unfold cloneUrlOf
    rw [hclaim]
    rfl
  obtain ⟨r', t, hsave⟩ := saveRepo_of_clear hs.tables hclear
  obtain ⟨hsaved, -⟩ := saveRepo_ok hs.tables hsave
  have hends : t.catalog.hasEnds ⟨r'.id, svc.id⟩ = true := by
    unfold Tables.hasEnds
    rw [Bool.and_eq_true, hsaved.setting.services, Table.contains_eq t.catalog.repos,
      hsaved.repos, if_pos rfl]
    exact ⟨hsvc, rfl⟩
  obtain ⟨d, hput, -⟩ :=
    run_putMember (hs.tables.of_version hsaved.setting.version) claim.cloneUrl svc.owner? hends
  exact ⟨claim.cloneUrl, r', t, _, hurl, hsave,
    fun hid => hsaved.target.trans (targetOf_of_id hid), hput⟩

theorem updateMember_total (hs : s.catalog.Furnished)
    (hsvc : s.catalog.services.contains svc.id = true) (hid : r.id ≠ 0)
    (hclaim : (r.claims.get? svc.urn).isSome = true) (hclear : s.catalog.Clear r) :
    ∃ t, updateMember svc r s = (.ok (), t) := by
  obtain ⟨url, r', t, u, hurl, hsave, hsame, hput⟩ := saved_total hs hsvc hclaim hclear
  rw [hsame hid] at hput
  refine ⟨u, ?_⟩
  unfold updateMember
  rw [if_neg hid]
  exact (bind_of_ok hurl).trans ((bind_of_ok hsave).trans hput)

theorem createMember_total (hs : s.catalog.Furnished)
    (hsvc : s.catalog.services.contains svc.id = true)
    (hclaim : (r.claims.get? svc.urn).isSome = true)
    (hclear : s.catalog.Clear { r with deletedAt := none }) :
    ∃ r' t, createMember svc r s = (.ok r', t) := by
  obtain ⟨url, r', t, u, hurl, hsave, -, hput⟩ :=
    saved_total (r := { r with deletedAt := none }) hs hsvc hclaim hclear
  have hurl' : cloneUrlOf svc r s = (.ok url, s) := hurl
  refine ⟨r', u, ?_⟩
  unfold createMember
  rw [bind_of_ok hurl', bind_of_ok hsave, bind_of_ok hput]
  rfl

end Store

namespace Catalog

variable {c d : Catalog} {r : Repo}

/-- Who has the name of a repository is found by it. -/
def Finds (c : Catalog) (r : Repo) : Prop :=
  ∀ j row, c.repos.get? j = some row → row.isLive = true →
    row.nameKey = Text.Ascii.lower r.name → meets r row = true

theorem finds_of_lowerName (c : Catalog) (hname : r.lowerName = Text.Ascii.lower r.name) :
    c.Finds r :=
  fun _ _ _ hlive hkey => meets_iff.mpr (.inl ⟨hlive, hkey.trans hname.symm⟩)

section
variable {rival existing : Option Repo} (htold : Told c r rival existing)
  (hdeleted : Deleted c (rival.toList.map (·.id)) d)

include htold hdeleted

/-- A row is as it was, or it made room and is a tombstone of another identity. -/
theorem Told.left {j : Int} {row : RepoRow} (hrow : d.repos.get? j = some row) :
    (c.repos.get? j = some row ∧ ∀ x, rival = some x → x.id ≠ j) ∨
      (row.isLive = false ∧ row.spec ≠ r.spec) := by
  obtain ⟨now, hrepos⟩ := hdeleted.repos
  rw [hrepos] at hrow
  obtain ⟨old, hold, rfl⟩ := Option.map_eq_some_iff.mp hrow
  split
  · rename_i hout
    obtain ⟨x, hx, hid⟩ := List.mem_map.mp hout
    obtain ⟨⟨row', hrow', -, -, hspec⟩, -⟩ := htold.other x (Option.mem_toList.mp hx)
    rw [hid] at hrow'
    cases hold.symm.trans hrow'
    exact .inr ⟨not_isLive_bury now old, (spec_bury now old).symm ▸ hspec⟩
  · rename_i hout
    refine .inl ⟨hold, fun x hx hid => hout ?_⟩
    exact List.mem_map.mpr ⟨x, Option.mem_toList.mpr hx, hid⟩

theorem Told.room (hfinds : c.Finds r) {j : Int} {row : RepoRow} (hrow : d.repos.get? j = some row)
    (hmeets : row.spec = r.spec ∨ row.isLive = true ∧ row.nameKey = Text.Ascii.lower r.name) :
    ∃ x, existing = some x ∧ x.id = j := by
  rcases htold.left hdeleted hrow with ⟨hold, hnot⟩ | ⟨hdead, hspec⟩
  · have hmatch : meets r row = true := hmeets.elim (fun hspec => meets_iff.mpr (.inr hspec))
      fun ⟨hlive, hkey⟩ => hfinds j row hold hlive hkey
    exact (htold.all j row hold hmatch).resolve_right fun ⟨x, hx, hid⟩ => hnot x hx hid
  · obtain ⟨hlive, -⟩ := hmeets.resolve_left hspec
    cases hdead.symm.trans hlive

theorem clear_of_told (hfinds : c.Finds r) {x : Repo}
    (hid : x.id = 0 ∨ d.repos.contains x.id = true) (hname : x.name = r.name)
    (hspec : ∀ j row, d.repos.get? j = some row → row.spec = x.spec →
      ∃ e, existing = some e ∧ e.id = j)
    (htarget : ∀ e, existing = some e → d.targetOf x = e.id) : d.Clear x := by
  refine ⟨hid, fun j row hrow hown => ?_, fun _ j row hrow hlive hkey => ?_⟩
  · obtain ⟨e, he, rfl⟩ := hspec j row hrow hown
    exact (htarget e he).symm
  · rw [hname] at hkey
    obtain ⟨e, he, rfl⟩ := htold.room hdeleted hfinds hrow (.inr ⟨hlive, hkey⟩)
    exact (htarget e he).symm

end

variable {rival : Option Repo} {x x' : Repo} {svc : Service}

theorem clear_asNew (htold : Told c r rival none)
    (hdeleted : Deleted c (rival.toList.map (·.id)) d) (hfinds : c.Finds r) (y : Syncer) :
    d.Clear { y.asNew r with deletedAt := none } :=
  clear_of_told htold hdeleted hfinds (.inl rfl) rfl
    (fun _ _ hrow hsame => htold.room hdeleted hfinds hrow (.inl hsame)) fun e he => (by cases he)

theorem clear_renewed (hc : c.Rooted) (htold : Told c r rival (some x))
    (hdeleted : Deleted c (rival.toList.map (·.id)) d) (hfinds : c.Finds r) (y : Syncer) :
    x.id ≠ 0 ∧ d.Clear (y.renewed x r) := by
  obtain ⟨row, hrow, -, hview⟩ := htold.own x rfl
  have hid : x.id ≠ 0 := Int.ne_of_gt (hc.ids x.id row hrow)
  obtain ⟨now, hrepos⟩ := hdeleted.repos
  have hkept : d.repos.get? x.id = some row := by
    rw [hrepos, hrow, Option.map_some, if_neg fun hout => (htold.displaced _ hout).1 rfl]
  -- An empty identity is that of no other row: the row that is found keeps its own.
  have hkeeps : ∀ j old, d.repos.get? j = some old → old.spec = (y.renewed x r).spec →
      ∃ e, some x = some e ∧ e.id = j := by
    intro j old hold hsame
    unfold Syncer.renewed Repo.revised at hsame
    simp only [] at hsame
    split at hsame
    · have hown : x.spec = row.spec := congrArg Repo.spec hview
      exact ⟨x, rfl, spec_inj hkept hold (hown.symm.trans hsame.symm)⟩
    · exact htold.room hdeleted hfinds hold (.inl hsame)
  refine ⟨hid, clear_of_told htold hdeleted hfinds (.inr ?_) rfl hkeeps fun e he => ?_⟩
  · exact Option.isSome_iff_exists.mpr ⟨row, hkept⟩
  · cases he
    exact targetOf_of_id hid

theorem Joined.bears (h : Joined c svc x x' d) (hlive : x.deletedAt = none) :
    ∃ j row, d.repos.get? j = some row ∧ row.isLive = true ∧ row.name = x.name := by
  obtain ⟨e, hsaved, -⟩ := h.saved
  refine ⟨x'.id, x'.row, h.row, ?_, ?_⟩
  · rw [hsaved.same]
    exact Option.isNone_iff_eq_none.mpr hlive
  · rw [hsaved.same]
    rfl

end Catalog

namespace Syncer

open Effect Catalog

variable {y : Syncer} {svc : Service} {r : Repo} {w w' : World}

theorem thrives_displace (hs : w.store.catalog.Furnished) (y : Syncer) (rival : Option Repo) :
    Thrives w (y.displace rival) := by
  cases rival with
  | none => exact .pure []
  | some x =>
      obtain ⟨d, hdelete, -⟩ := Store.run_deleteRepos hs.tables [x.id]
      exact (thrives_store _ _ hdelete).bind fun _ _ _ => .pure _

theorem thrives_refresh (hs : w.store.catalog.Furnished)
    (hsvc : w.store.catalog.services.contains svc.id = true)
    (hclaim : (r.claims.get? svc.urn).isSome = true) {x : Repo} (hid : x.id ≠ 0)
    (hclear : w.store.catalog.Clear (y.renewed x r)) : Thrives w (y.refresh svc x r) := by
  have hown : ((y.renewed x r).claims.get? svc.urn).isSome = true := by
    change ((r.claims.union x.claims).get? svc.urn).isSome = true
    rw [Dict.get?_union, Option.isSome_or, hclaim, Bool.true_or]
  have hwritten : (y.renewed x r).id ≠ 0 := hid
  obtain ⟨t, hupdate⟩ := Store.updateMember_total hs hsvc hwritten hown hclear
  unfold refresh
  simp only []
  split
  · exact (thrives_store _ _ hupdate).bind fun _ _ _ => .pure _
  · exact .pure _

theorem thrives_introduce (hs : w.store.catalog.Furnished)
    (hsvc : w.store.catalog.services.contains svc.id = true)
    (hclaim : (r.claims.get? svc.urn).isSome = true)
    (hclear : w.store.catalog.Clear { y.asNew r with deletedAt := none }) :
    Thrives w (y.introduce svc r) := by
  have hown : ((y.asNew r).claims.get? svc.urn).isSome = true := hclaim
  obtain ⟨added, t, hcreate⟩ := Store.createMember_total hs hsvc hown hclear
  exact (thrives_store _ _ hcreate).bind fun _ _ _ => .pure _

/-- Whatever the catalog holds, a service of the site may bring up a repository by whose name its
holder is found. -/
theorem thrives_reconcile (hc : w.store.catalog.Rooted)
    (hsvc : w.store.catalog.services.contains svc.id = true) (howner : svc.owner? = none)
    (hclaim : (r.claims.get? svc.urn).isSome = true) (hfinds : w.store.catalog.Finds r) :
    Thrives w (y.reconcile svc r) := by
  have hs := hc.furnished
  obtain ⟨rival, existing, htell, htold⟩ := exists_told w.store.catalog r
  unfold reconcile
  refine (thrives_store _ _ (run_twins hs r)).bind fun matching v hlist => ?_
  obtain ⟨hmatching, hv⟩ := Prod.mk.inj ((run_twins hs r).symm.trans (store_ok hlist))
  cases hmatching
  rw [hv] at hc hs hsvc htell htold hfinds
  rw [hv, related_found, htell]
  refine (thrives_displace hs y rival).bind fun ds u hdisplace => ?_
  obtain ⟨hdeleted, -⟩ := displace_deleted hs.tables hdisplace
  have hsu : u.store.catalog.Furnished := hs.of_sameSetting hdeleted.setting
  have hsvcu : u.store.catalog.services.contains svc.id = true := by
    rw [show u.store.catalog.services = v.store.catalog.services from hdeleted.setting.services]
    exact hsvc
  cases existing with
  | some x =>
      obtain ⟨hid, hclear⟩ := clear_renewed hc htold hdeleted hfinds y
      exact (thrives_refresh hsu hsvcu hclaim hid hclear).bind fun _ _ _ => .pure _
  | none =>
      have hclear := clear_asNew htold hdeleted hfinds y
      have hroom : y.checkRoom svc u = (.ok (), u) := by
        unfold checkRoom
        rw [howner]
        rfl
      refine Thrives.bind (.inl ⟨(), u, hroom, Chained.refl u⟩) fun _ u' hcheck => ?_
      cases hroom.symm.trans hcheck
      exact (thrives_introduce hsu hsvcu hclaim hclear).bind fun _ _ _ => .pure _

theorem spent_publish (y : Syncer) (d : Diff) : Within Spent (y.publish d) := by
  intro w e he
  unfold publish at he
  split at he
  · exact he
  · exact he

theorem thrives_sync (hc : w.store.catalog.Rooted)
    (hsvc : w.store.catalog.services.contains svc.id = true) (howner : svc.owner? = none)
    (hclaim : (r.claims.get? svc.urn).isSome = true) (hfinds : w.store.catalog.Finds r)
    (y : Syncer) : Thrives w (y.sync svc r) := by
  have hbody : ∀ v : World, v.store = opened w.store → Thrives v (y.reconcile svc r) := by
    intro v hv
    have hsame : v.store.catalog = w.store.catalog := catalog_of_opened hv
    rw [← hsame] at hc hsvc hfinds
    exact thrives_reconcile hc hsvc howner hclaim hfinds
  unfold sync
  refine (thrives_transaction (fun e => ⟨_, rfl⟩) hbody).bind fun d v _ => ?_
  obtain ⟨u, hpublish⟩ := publishSome_total y d v
  have hspent : Spent v u := (within_publishSome (spent_publish y) d).of_run hpublish
  exact Thrives.bind (.inl ⟨(), u, hpublish, hspent⟩) fun _ _ _ => .pure d

theorem sync_goes (hw : w.Calm) (hc : w.store.catalog.Rooted)
    (hsvc : w.store.catalog.services.contains svc.id = true) (howner : svc.owner? = none)
    (hclaim : (r.claims.get? svc.urn).isSome = true) (hfinds : w.store.catalog.Finds r)
    (y : Syncer) : ∃ d w', y.sync svc r w = (.ok d, w') ∧ w'.Calm := by
  have hcalmly : Within Calmly (y.sync svc r) :=
    admits_sync (p := fun _ => True) (calmly_publish y) trivial
  rcases thrives_sync hc hsvc howner hclaim hfinds y with
    ⟨d, w', hrun, -⟩ | ⟨context, e, w', -, hthreat⟩
  · exact ⟨d, w', hrun, hcalmly.of_run hrun hw⟩
  · exact (hw.not_threatened e hthreat).elim

theorem refresh_named {c : Catalog} {ids : List Int} {existing : Repo} {row : RepoRow} {d : Diff}
    (hs : w.store.catalog.Furnished) (hdeleted : Deleted c ids w.store.catalog)
    (hrow : c.repos.get? existing.id = some row) (hview : existing = c.view (existing.id, row))
    (hkept : existing.id ∉ ids) (hlive : r.deletedAt = none)
    (h : y.refresh svc existing r w = (.ok d, w')) :
    ∃ j row, w'.store.catalog.repos.get? j = some row ∧ row.isLive = true ∧ row.name = r.name := by
  rcases refresh_cases hs.tables h with ⟨hdiffers, rfl, -⟩ | ⟨-, x', -, hwritten, -⟩
  · have hsame := Repo.same_of_differs hdiffers
    obtain ⟨now, hrepos⟩ := hdeleted.repos
    refine ⟨existing.id, row, ?_, ?_, ?_⟩
    · rw [hrepos, hrow, Option.map_some, if_neg hkept]
    · have hdate := hsame.live hlive
      rw [hview] at hdate
      exact Option.isNone_iff_eq_none.mpr hdate
    · have hname := hsame.name
      rw [hview] at hname
      exact hname
  · refine hwritten.bears ?_
    unfold renewed Repo.revised
    simp only [hlive, Option.isNone_none, if_true]

theorem sync_named (hs : w.store.catalog.Furnished) (hlive : r.deletedAt = none) {d : Diff}
    (h : y.sync svc r w = (.ok d, w')) : ∃ j row, w'.store.catalog.repos.get? j = some row ∧
      row.isLive = true ∧ row.name = r.name := by
  obtain ⟨v, v', hv, hrun, hcatalog⟩ := sync_ok h
  have hsv : v.store.catalog.Furnished := by
    rw [hv]
    exact hs
  rw [hcatalog]
  obtain ⟨rival, existing, ds, d', u, u', htold, hstore, hdisplace, -, hend⟩ :=
    reconcile_inv hsv.tables hrun
  rw [← hstore] at htold hsv
  obtain ⟨hdeleted, -⟩ := displace_deleted hsv.tables hdisplace
  have hsu := hsv.of_sameSetting hdeleted.setting
  rcases hend with ⟨x, rfl, hrefresh⟩ | ⟨rfl, z, -, hz, hintroduce⟩
  · obtain ⟨row, hrow, -, hview⟩ := htold.own x rfl
    exact refresh_named hsu hdeleted hrow hview (fun hout => (htold.displaced _ hout).1 rfl) hlive
      hrefresh
  · rw [← hz] at hsu
    obtain ⟨added, hwritten, -⟩ := introduce_joined hsu.tables hintroduce
    exact hwritten.bears rfl

end Syncer

namespace Catalog

open Effect Syncer

/-- Nothing keeps a service of the site from bringing up a repository of a plain name, whatever its
identity: nothing breaks it off, no write is refused, and the only errors are those of faults that
were to come. In the end exactly one live row has the name. -/
theorem sync_unhindered {y : Syncer} {svc : Service} {r : Repo} {w : World}
    (hc : w.store.catalog.Rooted) (hsvc : w.store.catalog.Holds svc) (howner : svc.owner? = none)
    (hname : Text.IsAscii r.name) (hlive : r.deletedAt = none)
    (hclaim : (r.claims.get? svc.urn).isSome = true) :
    (∀ e w', y.sync svc r w = (.error e, w') →
      ∃ context error, e = .failed (.store context error) ∧ w.Threatened error) ∧
    ((∀ error, ¬w.Threatened error) → ∃ d w', y.sync svc r w = (.ok d, w')) ∧
    ∀ d w', y.sync svc r w = (.ok d, w') → w'.store.catalog.Sound ∧
      ∃ j row, w'.store.catalog.repos.get? j = some row ∧ row.isLive = true ∧ row.name = r.name ∧
        ∀ i other, w'.store.catalog.repos.get? i = some other → other.isLive = true →
          other.nameKey = Text.Ascii.lower r.name → i = j := by
  have hstored : w.store.catalog.services.contains svc.id = true := by
    obtain ⟨row, hrow, -⟩ := hsvc
    exact Option.isSome_iff_exists.mpr ⟨row, hrow⟩
  have hthrives := thrives_sync hc hstored howner hclaim
    (finds_of_lowerName _ (Text.lowerCase_of_ascii hname)) y
  refine ⟨fun e w' hrun => ?_, fun hnone => ?_, fun d w' hrun => ?_⟩
  · rcases hthrives with ⟨d, v, hok, -⟩ | ⟨context, error, v, herror, hthreat⟩
    · cases hok.symm.trans hrun
    · cases herror.symm.trans hrun
      exact ⟨context, error, rfl, hthreat⟩
  · rcases hthrives with ⟨d, v, hok, -⟩ | ⟨context, error, v, -, hthreat⟩
    · exact ⟨d, v, hok⟩
    · exact (hnone error hthreat).elim
  · obtain ⟨j, row, hrow, hrowLive, hrowName⟩ := sync_named hc.furnished hlive hrun
    refine ⟨w'.store.catalog.sound, j, row, hrow, hrowLive, hrowName,
      fun i other hother hotherLive hkey => nameKey_inj hother hrow hotherLive hrowLive ?_⟩
    rw [hkey, ← hrowName]
    rfl

end Catalog

namespace Sample

/-- The site once the host has brought up two repositories. -/
def neighbours : World :=
  ((syncer []).perform (.sync hub (entry "2" "beta"))
    ((syncer []).perform (.sync hub (entry "1" "alpha")) base).2).2

theorem neighbours_reachable : Catalog.Reachable Repo.ListedBy neighbours.store.catalog :=
  .pass _ _ (.pass _ _ (.start rfl rfl furnished_base) (entry_listedBy "1" "alpha"))
    (entry_listedBy "2" "beta")

theorem holds_neighbours : neighbours.store.catalog.Holds hub := by
  have hfirst := holds_base.synced (Catalog.Reachable.start rfl rfl furnished_base).tidy (syncer [])
    hub (r := entry "1" "alpha") rfl
  have hreach : Catalog.Reachable Repo.ListedBy
      ((syncer []).perform (.sync hub (entry "1" "alpha")) base).2.store.catalog :=
    .pass _ _ (.start rfl rfl furnished_base) (entry_listedBy "1" "alpha")
  exact hfirst.synced hreach.tidy (syncer []) hub rfl

end Sample

namespace Catalog

/-- The second repository takes over the name of the first. -/
theorem sync_unhindered_rival :
    let r := Sample.entry "2" "ALPHA"
    Sample.neighbours.store.catalog.Rooted ∧ Sample.neighbours.store.catalog.Holds Sample.hub ∧
      Sample.hub.owner? = none ∧ Text.IsAscii r.name ∧ r.deletedAt = none ∧
      (r.claims.get? Sample.hub.urn).isSome = true ∧
      ∃ d w', (Sample.syncer []).sync Sample.hub r Sample.neighbours = (.ok d, w') ∧
        ∃ j row, w'.store.catalog.repos.get? j = some row ∧ row.isLive = true ∧ row.name = r.name ∧
          ∀ i other, w'.store.catalog.repos.get? i = some other → other.isLive = true →
            other.nameKey = Text.Ascii.lower r.name → i = j := by
  intro r
  have hc := Sample.neighbours_reachable.rooted
  have hname : Text.IsAscii r.name := by decide
  have hclaim : (r.claims.get? Sample.hub.urn).isSome = true := by
    rw [show r.claims.get? Sample.hub.urn = some ⟨Sample.hub.urn, "ALPHA"⟩ from
      (Claims.get?_solo _ _ _).trans (if_pos rfl)]
    rfl
  have hcalm : Sample.neighbours.faults = [] := by decide +kernel
  obtain ⟨-, hgoes, hends⟩ := sync_unhindered (y := Sample.syncer []) hc Sample.holds_neighbours rfl
    hname rfl hclaim
  obtain ⟨d, w', hrun⟩ := hgoes fun e hthreat => by
    obtain ⟨f, hf, -⟩ := hthreat
    rw [hcalm] at hf
    cases hf
  exact ⟨hc, Sample.holds_neighbours, rfl, hname, rfl, hclaim, d, w', hrun, (hends d w' hrun).2⟩

end Catalog

end RepoCatalog
