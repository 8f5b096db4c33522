import RepoCatalog.Proofs.Edits
import RepoCatalog.Proofs.Save
import RepoCatalog.Store.Services

/-!
# Deletions, single memberships and visits

What the other writes of a pass do to the catalog. None of them, and no reading, opens or closes a
transaction.
-/
namespace RepoCatalog

open Time (Instant)

namespace Catalog

/-- What the catalog `d` holds once repositories were deleted from `c`. -/
structure Deleted (c : Catalog) (ids : List Int) (d : Catalog) : Prop where
  setting : SameSetting c d
  lastId : d.repos.lastId = c.repos.lastId
  repos : ∃ now, ∀ j, d.repos.get? j =
    (c.repos.get? j).map fun row => if j ∈ ids then bury now row else row
  members : ∀ k, d.members.get? k = if k.repo ∈ ids then none else c.members.get? k

/-- What the catalog `d` holds once a repository was written into `c` together with a membership. -/
structure Joined (c : Catalog) (svc : Service) (r r' : Repo) (d : Catalog) : Prop where
  saved : ∃ e, Saved c r r' e ∧ SameSetting e d ∧ d.repos = e.repos
  member : ∃ claim, r.claims.get? svc.urn = some claim ∧
    d.members = c.members.insert ⟨r'.id, svc.id⟩ ⟨claim.cloneUrl, svc.owner?⟩

/-- What the catalog `d` holds once some repositories in `c` were taken from a service. -/
structure Released (c : Catalog) (service : Int) (now : Instant) (ids : List Int) (d : Catalog) :
    Prop where
  setting : SameSetting c d
  lastId : d.repos.lastId = c.repos.lastId
  repos : ∀ j, d.repos.get? j = (c.repos.get? j).map fun row =>
    if j ∈ ids ∧ d.isClaimed j = false then bury now row else row
  members : ∀ k, d.members.get? k =
    if k.service = service ∧ k.repo ∈ ids then none else c.members.get? k

/-- What the catalog `d` holds once a service lost all repositories in `c` but some. -/
structure Swept (c : Catalog) (svc : Service) (keep ids : List Int) (d : Catalog) : Prop where
  setting : SameSetting c d
  lastId : d.repos.lastId = c.repos.lastId
  taken : ∀ id, id ∈ ids ↔ (∃ m, c.members.get? ⟨id, svc.id⟩ = some m) ∧ id ∉ keep
  repos : ∃ now, ∀ j, d.repos.get? j = (c.repos.get? j).map fun row =>
    if j ∈ ids ∧ d.isClaimed j = false then bury now row else row
  members : ∀ k, d.members.get? k =
    if k.service = svc.id ∧ k.repo ∈ ids then none else c.members.get? k

theorem Released.nil (c : Catalog) (service : Int) (now : Instant) :
    Released c service now [] c where
  setting := .refl c
  lastId := rfl
  repos j := by simp
  members k := by simp

theorem Released.isClaimed_eq {c d e : Catalog} {service : Int} {now : Instant}
    {ids more : List Int} (h : Released c service now ids d) (h' : Released d service now more e)
    {j : Int} (hj : j ∈ ids) : e.isClaimed j = d.isClaimed j := by
  rw [Bool.eq_iff_iff, isClaimed_iff, isClaimed_iff]
  refine exists_congr fun s => exists_congr fun m => ?_
  rw [h'.members]
  by_cases hs : s = service
  · have hgone : d.members.get? ⟨j, s⟩ = none := by
      rw [h.members, if_pos ⟨hs, hj⟩]
    simp [hgone]
  · simp [hs]

theorem Released.append {c d e : Catalog} {service : Int} {now : Instant} {ids more : List Int}
    (h : Released c service now ids d) (h' : Released d service now more e) :
    Released c service now (ids ++ more) e where
  setting := h.setting.trans h'.setting
  lastId := h'.lastId.trans h.lastId
  repos j := by
    rw [h'.repos, h.repos, Option.map_map]
    refine Option.map_congr fun row _ => ?_
    simp only [Function.comp_apply, List.mem_append]
    by_cases hj : j ∈ ids
    · rw [h.isClaimed_eq h' hj]
      by_cases hclaimed : d.isClaimed j = false
      · simp [hj, hclaimed, bury_bury]
      · simp [hclaimed]
    · simp [hj]
  members k := by
    rw [h'.members, h.members]
    by_cases hk : k.service = service
    · by_cases hmore : k.repo ∈ more
      · simp [hk, hmore]
      · simp [hk, hmore]
    · simp [hk]

/-- The ids of the repositories that a service holds, in increasing order. -/
def reposOf (c : Catalog) (service : Int) : List Int :=
  (c.members.entries.filter fun e => e.1.service == service).map (·.1.repo)

theorem mem_reposOf {c : Catalog} {service id : Int} :
    id ∈ c.reposOf service ↔ ∃ m, c.members.get? ⟨id, service⟩ = some m := by
  unfold reposOf
  simp only [List.mem_map, List.mem_filter, beq_iff_eq, Dict.get?_eq_some_iff, Prod.exists]
  constructor
  · rintro ⟨⟨repo, _⟩, m, ⟨hmem, rfl⟩, rfl⟩
    exact ⟨m, hmem⟩
  · rintro ⟨m, hmem⟩
    exact ⟨⟨id, service⟩, m, ⟨hmem, rfl⟩, rfl⟩

theorem pairwise_reposOf (c : Catalog) (service : Int) :
    (c.reposOf service).Pairwise (· < ·) := by
  unfold reposOf
  rw [List.pairwise_map]
  refine List.Pairwise.imp_of_mem ?_ (c.members.sorted.filter _)
  intro a b ha hb hlt
  have hsame : a.1.service = b.1.service := by
    have ha' := (List.mem_filter.mp ha).2
    have hb' := (List.mem_filter.mp hb).2
    rw [beq_iff_eq] at ha' hb'
    exact ha'.trans hb'.symm
  rw [MemberKey.compare_def, hsame, Ordering.then_eq_lt] at hlt
  rcases hlt with hlt | ⟨-, hlt⟩
  · exact Std.compare_eq_lt.mp hlt
  · exact absurd (Std.compare_eq_lt.mp hlt) (Int.lt_irrefl _)

end Catalog

namespace Store

open Step Catalog

variable {s t : Store}

theorem run_deleteRepos (hs : s.catalog.Complete) (ids : List Int) :
    ∃ d, deleteRepos ids s = (.ok (), { s.tick with catalog := d }) ∧ Deleted s.catalog ids d := by
  have hs' : s.tick.catalog.Complete := hs
  unfold deleteRepos
  rw [bind_of_ok (run_now s)]
  by_cases hempty : ids.isEmpty = true
  · rw [if_pos hempty]
    refine ⟨s.catalog, rfl, .refl _, rfl, ⟨s.clock, fun j => ?_⟩, fun k => ?_⟩
    · rw [List.isEmpty_iff.mp hempty]
      simp
    · rw [List.isEmpty_iff.mp hempty]
      simp
  · rw [if_neg hempty]
    let dropped := s.catalog.dropMembers fun k => ids.contains k.repo
    have hdropped : dropped.Complete := hs.of_version rfl
    refine ⟨dropped.buryRepos s.clock fun id => ids.contains id, ?_, ?_⟩
    · rw [bind_of_ok (run_update hs' _ _)]
      exact run_update (s := { s.tick with catalog := dropped }) hdropped _ _
    · refine ⟨?_, rfl, ⟨s.clock, ?_⟩, ?_⟩
      · exact (sameSetting_dropMembers _ _).trans (sameSetting_buryRepos _ _ _)
      · intro j
        rw [get?_buryRepos, repos_dropMembers]
        simp only [List.contains_iff_mem]
      · intro k
        rw [members_buryRepos, get?_dropMembers]
        simp only [List.contains_iff_mem]

theorem deleteRepos_ok (hs : s.catalog.Complete) {ids : List Int} {u : Unit}
    (h : deleteRepos ids s = (.ok u, t)) : Deleted s.catalog ids t.catalog ∧ t.saved = s.saved := by
  obtain ⟨d, hrun, hdeleted⟩ := run_deleteRepos hs ids
  cases hrun.symm.trans h
  exact ⟨hdeleted, rfl⟩

theorem cloneUrlOf_ok {svc : Service} {r : Repo} {url : String}
    (h : cloneUrlOf svc r s = (.ok url, t)) :
    (∃ claim, r.claims.get? svc.urn = some claim ∧ claim.cloneUrl = url) ∧ t = s := by
  unfold cloneUrlOf at h
  cases hclaim : r.claims.get? svc.urn with
  | none =>
      rw [hclaim] at h
      cases h
  | some claim =>
      rw [hclaim] at h
      cases h
      exact ⟨⟨claim, rfl, rfl⟩, rfl⟩

theorem createMember_ok (hs : s.catalog.Complete) {svc : Service} {r r' : Repo}
    (h : createMember svc r s = (.ok r', t)) :
    Joined s.catalog svc { r with deletedAt := none } r' t.catalog := by
  unfold createMember at h
  obtain ⟨url, u, hurl, hrest⟩ := bind_ok_iff.mp h
  obtain ⟨r'', v, hsave, hrest'⟩ := bind_ok_iff.mp hrest
  obtain ⟨⟨⟩, w, hput, hend⟩ := bind_ok_iff.mp hrest'
  obtain ⟨⟨claim, hclaim, rfl⟩, rfl⟩ := cloneUrlOf_ok hurl
  obtain ⟨hsaved, -⟩ := saveRepo_ok hs hsave
  obtain ⟨hsetting, hrepos, hmembers, -⟩ := putMember_ok hput
  cases hend
  exact ⟨⟨_, hsaved, hsetting, hrepos⟩, claim, hclaim, by rw [hmembers, hsaved.members]⟩

theorem updateMember_ok (hs : s.catalog.Complete) {svc : Service} {r : Repo} {u : Unit}
    (h : updateMember svc r s = (.ok u, t)) :
    r.id ≠ 0 ∧ ∃ r', r'.id = r.id ∧ Joined s.catalog svc r r' t.catalog := by
  unfold updateMember at h
  by_cases hid : r.id = 0
  · rw [if_pos hid] at h
    obtain ⟨⟨⟩, u, hfail, -⟩ := bind_ok_iff.mp h
    cases hfail
  · rw [if_neg hid] at h
    obtain ⟨url, u, hurl, hrest⟩ := bind_ok_iff.mp h
    obtain ⟨r', v, hsave, hput⟩ := bind_ok_iff.mp hrest
    obtain ⟨⟨claim, hclaim, rfl⟩, rfl⟩ := cloneUrlOf_ok hurl
    obtain ⟨hsaved, -⟩ := saveRepo_ok hs hsave
    obtain ⟨hsetting, hrepos, hmembers, -⟩ := putMember_ok hput
    have hsame : r'.id = r.id := hsaved.target.trans (targetOf_of_id hid)
    refine ⟨hid, r', hsame, ⟨_, hsaved, hsetting, hrepos⟩, claim, hclaim, ?_⟩
    rw [hmembers, hsaved.members, hsame]

theorem run_release (hs : s.catalog.Complete) (svc : Service) (now : Instant) (ids : List Int) :
    ∃ d, release svc now ids s = (.ok (), { s with catalog := d }) ∧
      Released s.catalog svc.id now ids d := by
  let dropped := s.catalog.dropMembers fun k => k.service == svc.id && ids.contains k.repo
  have hdropped : dropped.Complete := hs.of_version rfl
  refine ⟨dropped.buryRepos now fun id => ids.contains id && !dropped.isClaimed id, ?_, ?_⟩
  · unfold release
    rw [bind_of_ok (run_update hs _ _)]
    exact run_update (s := { s with catalog := dropped }) hdropped _ _
  · refine ⟨(sameSetting_dropMembers _ _).trans (sameSetting_buryRepos _ _ _), rfl,
      fun j => ?_, fun k => ?_⟩
    · rw [get?_buryRepos, repos_dropMembers]
      congr 1
      funext row
      refine if_congr ?_ rfl rfl
      rw [Bool.and_eq_true, List.contains_iff_mem, Bool.not_eq_true']
      rfl
    · rw [members_buryRepos, get?_dropMembers]
      refine if_congr ?_ rfl rfl
      rw [Bool.and_eq_true, List.contains_iff_mem, beq_iff_eq]

/-- Parts that are taken one after the other are taken together. -/
theorem run_releases (hs : s.catalog.Complete) (svc : Service) (now : Instant)
    (parts : List (List Int)) :
    ∃ d, parts.forM (release svc now) s = (.ok (), { s with catalog := d }) ∧
      Released s.catalog svc.id now parts.flatten d := by
  induction parts generalizing s with
  | nil => exact ⟨s.catalog, rfl, .nil _ _ _⟩
  | cons part parts ih =>
      obtain ⟨c, hrun, hfirst⟩ := run_release hs svc now part
      have hc : ({ s with catalog := c } : Store).catalog.Complete :=
        hs.of_version hfirst.setting.version
      obtain ⟨d, hruns, hrest⟩ := ih hc
      exact ⟨d, (forM_of_ok hrun).trans hruns, hfirst.append hrest⟩

/-- A sweep takes from a service what is not to be kept, whatever the number of parts. -/
theorem run_sweep_released (hs : s.catalog.Complete) (svc : Service) (keep : List Int) :
    ∃ t, sweep svc keep s =
        (.ok ((s.catalog.reposOf svc.id).filter fun id => !keep.contains id), t) ∧
      Released s.catalog svc.id s.clock
        ((s.catalog.reposOf svc.id).filter fun id => !keep.contains id) t.catalog ∧
      t.saved = s.saved := by
  unfold sweep
  rw [bind_of_ok (run_read hs _ _)]
  generalize hstale : ((s.catalog.reposOf svc.id).filter fun id => !keep.contains id) = stale
  have hstale' : (((s.catalog.members.entries.filter fun e => e.1.service == svc.id).map
      (·.1.repo)).filter fun id => !keep.contains id) = stale := hstale
  simp only [hstale']
  by_cases hempty : stale.isEmpty = true
  · rw [if_pos hempty]
    obtain rfl := List.isEmpty_iff.mp hempty
    exact ⟨s, rfl, .nil _ _ _, rfl⟩
  · rw [if_neg hempty]
    have hs' : s.tick.catalog.Complete := hs
    obtain ⟨d, hrun, hreleased⟩ := run_releases hs' svc s.clock (chunksOf (releaseSize - 1) stale)
    rw [flatten_chunksOf] at hreleased
    rw [bind_of_ok (run_now s), bind_of_ok hrun]
    exact ⟨_, rfl, hreleased, rfl⟩

theorem run_sweep (hs : s.catalog.Furnished) (svc : Service) (keep : List Int) :
    ∃ ids t, sweep svc keep s = (.ok ids, t) ∧ Swept s.catalog svc keep ids t.catalog := by
  obtain ⟨t, hrun, hreleased, -⟩ := run_sweep_released hs.tables svc keep
  refine ⟨_, t, hrun, hreleased.setting, hreleased.lastId, fun id => ?_, ⟨_, hreleased.repos⟩,
    hreleased.members⟩
  simp [mem_reposOf]

theorem sweep_ok (hs : s.catalog.Furnished) {svc : Service} {keep ids : List Int}
    (h : sweep svc keep s = (.ok ids, t)) : Swept s.catalog svc keep ids t.catalog := by
  obtain ⟨ids', t', hrun, hswept⟩ := run_sweep hs svc keep
  cases hrun.symm.trans h
  exact hswept

end Store

namespace Service

def rowAt (svc : Service) (now : Instant) : ServiceRow where
  kindName := svc.kind.name
  displayName := svc.displayName
  config := svc.config
  namespaceUserId := svc.namespaceUserId
  cloudDefault := svc.cloudDefault
  lastSyncAt := svc.lastSyncAt
  nextSyncAt := svc.nextSyncAt
  createdAt := svc.createdAt.getD now
  updatedAt := now
  deletedAt := svc.deletedAt

def visited (svc : Service) (at_ next : Instant) : Service :=
  { svc with lastSyncAt := some at_, nextSyncAt := some next }

end Service

namespace Store

open Catalog Step

variable {s t : Store} {svc svc' : Service}

/-- Where a service has no id yet, a row is added for it, and else its row is changed. -/
inductive Put (svc : Service) (row : ServiceRow) (c : Catalog) : Int → Catalog → Prop where
  | added {id : Int} {d : Catalog} :
      svc.id = 0 → c.addService row = .ok (id, d) → Put svc row c id d
  | changed {id : Int} {d : Catalog} : svc.id ≠ 0 → id = svc.id →
      c.changeService svc.id (fun _ => row) = .ok ((), d) → Put svc row c id d

theorem putService_cases {r : Except StoreError Service} (h : putService svc s = (r, t)) :
    (∃ e, r = .error e) ∧ t.catalog = s.catalog ∨
      ∃ svc', r = .ok svc' ∧ Put svc (svc.rowAt s.clock) s.catalog svc'.id t.catalog ∧
        t.saved = s.saved := by
  unfold putService at h
  rw [bind_of_ok (run_now s)] at h
  by_cases hid : svc.id = 0
  · rw [if_pos hid] at h
    rcases bind_cases h with ⟨e, hwrite, rfl⟩ | ⟨id, u, hwrite, hend⟩
    · rw [write_error hwrite]
      exact .inl ⟨⟨e, rfl⟩, rfl⟩
    · obtain ⟨d, hadd, rfl⟩ := write_ok (s := s.tick) hwrite
      cases hend
      exact .inr ⟨_, rfl, .added hid hadd, rfl⟩
  · rw [if_neg hid] at h
    rcases bind_cases h with ⟨e, hwrite, rfl⟩ | ⟨⟨⟩, u, hwrite, hend⟩
    · rw [write_error hwrite]
      exact .inl ⟨⟨e, rfl⟩, rfl⟩
    · obtain ⟨d, hchange, rfl⟩ := write_ok (s := s.tick) hwrite
      cases hend
      exact .inr ⟨_, rfl, .changed hid rfl hchange, rfl⟩

theorem putService_error {e : StoreError} (h : putService svc s = (.error e, t)) :
    t.catalog = s.catalog := by
  rcases putService_cases h with ⟨-, hsame⟩ | ⟨svc', hok, -⟩
  · exact hsame
  · cases hok

theorem putService_put (h : putService svc s = (.ok svc', t)) :
    Put svc (svc.rowAt s.clock) s.catalog svc'.id t.catalog ∧ t.saved = s.saved := by
  rcases putService_cases h with ⟨⟨e, he⟩, -⟩ | ⟨_, hok, hput⟩
  · cases he
  · cases hok
    exact hput

theorem Put.visited {c d : Catalog} {id : Int} {now : Instant} (hc : c.Furnished)
    (hid : svc.id ≠ 0) (h : Put svc (svc.rowAt now) c id d) : Visited c d := by
  cases h with
  | added hnew _ => exact absurd hnew hid
  | changed _ _ hchange =>
      refine changeService_ok hc hchange fun row => ?_
      change (Kind.ofName? svc.kind.name).isSome = true
      rw [Kind.ofName?_name]
      rfl

theorem putService_ok (hs : s.catalog.Furnished) (hid : svc.id ≠ 0)
    (h : putService svc s = (.ok svc', t)) : Visited s.catalog t.catalog ∧ t.saved = s.saved := by
  obtain ⟨hput, hsaved⟩ := putService_put h
  exact ⟨hput.visited hs hid, hsaved⟩

end Store

end RepoCatalog
