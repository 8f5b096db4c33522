import Mathlib.Data.List.Basic
import RepoCatalog.Proofs.Catalog
import RepoCatalog.Proofs.Step
import RepoCatalog.Store.Memberships

/-!
# Runs of store steps

What each step of the store answers and what it leaves in the catalog, as long as all tables exist.
-/
namespace RepoCatalog

namespace Store

open Step

variable {α : Type} {s : Store}

def tick (s : Store) : Store :=
  { s with clock := ⟨s.clock.nanoseconds + 1000⟩ }

theorem run_now (s : Store) : now s = (.ok s.clock, s.tick) := rfl

theorem run_require (hs : s.catalog.Complete) (tables : List TableName)
    (refusal : DatabaseFault → DatabaseError) : require tables refusal s = (.ok (), s) := by
  have hnone : (tables.find? fun t => !s.catalog.hasTable t) = none := by
    rw [List.find?_eq_none]
    intro t _
    rw [hs t]
    decide
  unfold require
  rw [bind_of_ok (run_get s)]
  simp only [hnone]
  rfl

theorem run_read (hs : s.catalog.Complete) (tables : List TableName) (f : Catalog → α) :
    read tables f s = (.ok (f s.catalog), s) := by
  unfold read
  rw [bind_of_ok (run_require hs tables .refusedRead)]
  rfl

theorem run_write (hs : s.catalog.Complete) (tables : List TableName)
    (f : Catalog → Catalog.Change α) :
    write tables f s = match f s.catalog with
      | .ok (a, c) => (.ok a, { s with catalog := c })
      | .error e => (.error (.database e), s) := by
  unfold write
  rw [bind_of_ok (run_require hs tables .refusedWrite), bind_of_ok (run_get s)]
  cases f s.catalog with
  | ok r => rfl
  | error e => rfl

theorem run_write_of_ok (hs : s.catalog.Complete) {tables : List TableName}
    {f : Catalog → Catalog.Change α} {a : α} {c : Catalog} (h : f s.catalog = .ok (a, c)) :
    write tables f s = (.ok a, { s with catalog := c }) := by
  rw [run_write hs, h]

theorem run_write_of_error (hs : s.catalog.Complete) {tables : List TableName}
    {f : Catalog → Catalog.Change α} {e : DatabaseError} (h : f s.catalog = .error e) :
    write tables f s = (.error (.database e), s) := by
  rw [run_write hs, h]

theorem snd_require (tables : List TableName) (refusal : DatabaseFault → DatabaseError) (s : Store) :
    (require tables refusal s).2 = s := by
  unfold require
  rw [bind_of_ok (run_get s)]
  cases tables.find? fun t => !s.catalog.hasTable t with
  | some t => rfl
  | none => rfl

/-- A statement that writes fails without a trace or changes the catalog as it says, also where
tables are missing. -/
theorem write_cases (tables : List TableName) (f : Catalog → Catalog.Change α) (s : Store) :
    (∃ e, write tables f s = (.error e, s)) ∨
      ∃ a c, f s.catalog = .ok (a, c) ∧ write tables f s = (.ok a, { s with catalog := c }) := by
  have hstill := snd_require tables .refusedWrite s
  unfold write
  rw [run_bind]
  cases hrun : require tables .refusedWrite s with
  | mk r t =>
      rw [hrun] at hstill
      cases hstill
      cases r with
      | error e => exact .inl ⟨e, rfl⟩
      | ok u =>
          simp only []
          rw [bind_of_ok (run_get _)]
          cases hf : f t.catalog with
          | error e => exact .inl ⟨_, rfl⟩
          | ok p => exact .inr ⟨p.1, p.2, rfl, rfl⟩

theorem write_ok {tables : List TableName} {f : Catalog → Catalog.Change α} {a : α} {t : Store}
    (h : write tables f s = (.ok a, t)) :
    ∃ c, f s.catalog = .ok (a, c) ∧ { s with catalog := c } = t := by
  rcases write_cases tables f s with ⟨e, hrun⟩ | ⟨a', c, hf, hrun⟩
  · cases hrun.symm.trans h
  · cases hrun.symm.trans h
    exact ⟨c, hf, rfl⟩

theorem write_error {tables : List TableName} {f : Catalog → Catalog.Change α} {e : StoreError}
    {t : Store} (h : write tables f s = (.error e, t)) : t = s := by
  rcases write_cases tables f s with ⟨e', hrun⟩ | ⟨a, c, -, hrun⟩
  · cases hrun.symm.trans h
    rfl
  · cases hrun.symm.trans h

theorem run_update (hs : s.catalog.Complete) (tables : List TableName) (f : Catalog → Catalog) :
    update tables f s = (.ok (), { s with catalog := f s.catalog }) := by
  unfold update
  rw [run_write hs]

theorem run_kindsOf (hs : s.catalog.Complete) {ids : List Int}
    (hknown : ∀ id ∈ ids, ∃ kind, s.catalog.kindOf? id = some kind) :
    ∃ kinds : Dict Int Kind, kindsOf ids s = (.ok kinds, s) ∧
      ∀ id ∈ ids, kinds.get? id = s.catalog.kindOf? id := by
  let rows := s.catalog.services.toList.filter fun e => ids.contains e.1
  let kindOf (e : Int × ServiceRow) : Kind := (Kind.ofName? e.2.kindName).getD default
  have hrow : ∀ e ∈ rows, Kind.ofName? e.2.kindName = some (kindOf e) := by
    intro e he
    obtain ⟨hmem, hid⟩ := List.mem_filter.mp he
    rw [List.contains_iff_mem] at hid
    obtain ⟨kind, hkind⟩ := hknown e.1 hid
    unfold Catalog.kindOf? at hkind
    rw [Table.get?_eq_some_iff.mpr hmem, Option.bind_some] at hkind
    simp only [kindOf, hkind, Option.getD_some]
  refine ⟨.ofList (rows.map fun e => (e.1, kindOf e)), ?_, ?_⟩
  · unfold kindsOf
    rw [bind_of_ok (run_read hs _ _),
      bind_of_ok (mapM_of_ok (g := fun e => (e.1, kindOf e)) ?_)]
    · rfl
    · intro e he
      simp only [hrow e he]
      rfl
  · intro id hid
    obtain ⟨kind, hkind⟩ := hknown id hid
    obtain ⟨row, hget, hname⟩ := Option.bind_eq_some_iff.mp hkind
    have hmem : (id, row) ∈ rows := by
      refine List.mem_filter.mpr ⟨Table.get?_eq_some_iff.mp hget, ?_⟩
      simpa using hid
    rw [hkind, ← hname, hrow (id, row) hmem]
    refine Dict.get?_ofList_of_mem (List.mem_map.mpr ⟨_, hmem, rfl⟩) fun b hb => ?_
    obtain ⟨x, hx, heq⟩ := List.mem_map.mp hb
    cases heq
    have hx' := Table.get?_eq_some_iff.mpr (List.mem_filter.mp hx).1
    rw [hget] at hx'
    cases x
    cases hx'
    rfl

theorem known_of_kindsOf (hs : s.catalog.Complete) {ids : List Int} {kinds : Dict Int Kind}
    {t : Store} (h : kindsOf ids s = (.ok kinds, t)) {id : Int} (hid : id ∈ ids)
    {row : ServiceRow} (hrow : s.catalog.services.get? id = some row) :
    ∃ kind, s.catalog.kindOf? id = some kind := by
  unfold kindsOf at h
  rw [bind_of_ok (run_read hs _ _)] at h
  obtain ⟨found, u, hfound, -⟩ := bind_ok_iff.mp h
  have hmem : (id, row) ∈ s.catalog.services.toList.filter fun e => ids.contains e.1 := by
    refine List.mem_filter.mpr ⟨Table.get?_eq_some_iff.mp hrow, ?_⟩
    simpa using hid
  obtain ⟨e, v, v', hkind⟩ := ran_of_mapM_ok hfound hmem
  cases hname : Kind.ofName? row.kindName with
  | some kind => exact ⟨kind, by rw [Catalog.kindOf?, hrow, Option.bind_some, hname]⟩
  | none =>
      simp only [hname] at hkind
      cases hkind

theorem claimsOn_eq {c : Catalog} {kinds : Dict Int Kind} {members : List (MemberKey × Membership)}
    {ids : List Int} {repo : Int}
    (hmembers : members = c.members.entries.filter fun e => ids.contains e.1.repo)
    (hkinds : ∀ e ∈ members, kinds.get? e.1.service = c.kindOf? e.1.service) (hrepo : repo ∈ ids) :
    claimsOn kinds members repo = c.claimsOn repo := by
  have hown : (members.filter fun e => e.1.repo == repo) =
      c.members.entries.filter fun e => e.1.repo == repo := by
    rw [hmembers, List.filter_filter]
    refine List.filter_congr fun e _ => ?_
    by_cases he : e.1.repo = repo
    · simp [he, hrepo]
    · simp [he]
  unfold claimsOn Catalog.claimsOn
  congr 1
  rw [← hown]
  refine List.filterMap_congr fun e he => ?_
  unfold claimOf
  rw [hkinds e (List.mem_filter.mp he).1, Option.map_map]
  rfl

theorem run_withClaims (hs : s.catalog.Complete) {rows : List (Int × RepoRow)}
    (hknown : ∀ e ∈ rows, s.catalog.KindsKnown e.1) :
    withClaims rows s = (.ok (rows.map s.catalog.view), s) := by
  let members := s.catalog.members.entries.filter fun e => (rows.map (·.1)).contains e.1.repo
  have hview : ∀ kinds : Dict Int Kind,
      (∀ e ∈ members, kinds.get? e.1.service = s.catalog.kindOf? e.1.service) →
      (rows.map fun e => e.2.toRepo e.1 (claimsOn kinds members e.1)) =
        rows.map s.catalog.view := by
    intro kinds hkinds
    refine List.map_congr_left fun e he => ?_
    unfold Catalog.view
    rw [claimsOn_eq rfl hkinds (List.mem_map.mpr ⟨e, he, rfl⟩)]
  unfold withClaims
  by_cases hempty : rows.isEmpty = true
  · rw [if_pos hempty, List.isEmpty_iff.mp hempty]
    rfl
  · rw [if_neg hempty]
    simp only []
    rw [bind_of_ok (run_read hs _ _)]
    by_cases hm : members.isEmpty = true
    · rw [if_pos hm, bind_of_ok (run_pure _ _), run_pure, hview]
      intro e he
      rw [List.isEmpty_iff.mp hm] at he
      cases he
    · have hkinds : ∀ id ∈ members.map (·.1.service), ∃ kind, s.catalog.kindOf? id = some kind := by
        intro id hid
        obtain ⟨⟨k, m⟩, he, rfl⟩ := List.mem_map.mp hid
        obtain ⟨hmem, hrepo⟩ := List.mem_filter.mp he
        rw [List.contains_iff_mem] at hrepo
        obtain ⟨e, hrow, hsame⟩ := List.mem_map.mp hrepo
        refine hknown e hrow k.service m (Dict.get?_eq_some_iff.mpr ?_)
        rw [hsame]
        exact hmem
      obtain ⟨kinds, hrun, hget⟩ := run_kindsOf hs hkinds
      rw [if_neg hm, bind_of_ok hrun, run_pure, hview]
      intro e he
      exact hget _ (List.mem_map.mpr ⟨e, he, rfl⟩)

theorem known_of_withClaims (hs : s.catalog.Complete) {rows : List (Int × RepoRow)}
    {rs : List Repo} {t : Store} (h : withClaims rows s = (.ok rs, t)) :
    ∀ e ∈ rows, s.catalog.KindsKnown e.1 := by
  intro e he service m hm
  let members := s.catalog.members.entries.filter fun e => (rows.map (·.1)).contains e.1.repo
  have hmem : (⟨e.1, service⟩, m) ∈ members := by
    refine List.mem_filter.mpr ⟨Dict.get?_eq_some_iff.mp hm, ?_⟩
    rw [List.contains_iff_mem]
    exact List.mem_map_of_mem he
  unfold withClaims at h
  rw [if_neg (mt List.isEmpty_iff.mp (List.ne_nil_of_mem he))] at h
  simp only [] at h
  rw [bind_of_ok (run_read hs _ _), if_neg (mt List.isEmpty_iff.mp (List.ne_nil_of_mem hmem))] at h
  obtain ⟨kinds, u, hkinds, -⟩ := bind_ok_iff.mp h
  obtain ⟨row, hrow⟩ := Catalog.service_of_member hm
  exact known_of_kindsOf hs hkinds (List.mem_map_of_mem hmem) hrow

theorem run_listRepos_of_known (hs : s.catalog.Complete) {q : RepoQuery}
    (hknown : ∀ e ∈ q.select s.catalog, s.catalog.KindsKnown e.1) :
    listRepos q s = (.ok ((q.select s.catalog).map s.catalog.view), s) := by
  unfold listRepos
  rw [bind_of_ok (run_read hs _ _), run_withClaims hs hknown]

/-- Whatever is listed is seen as it is stored. -/
theorem listRepos_ok (hs : s.catalog.Complete) {q : RepoQuery} {rs : List Repo} {t : Store}
    (h : listRepos q s = (.ok rs, t)) : rs = (q.select s.catalog).map s.catalog.view ∧ t = s ∧
      ∀ e ∈ q.select s.catalog, s.catalog.KindsKnown e.1 := by
  have hrun := h
  unfold listRepos at hrun
  rw [bind_of_ok (run_read hs _ _)] at hrun
  have hknown := known_of_withClaims hs hrun
  obtain ⟨hrs, ht⟩ := Prod.mk.inj (h.symm.trans (run_listRepos_of_known hs hknown))
  exact ⟨Except.ok.inj hrs, ht, hknown⟩

theorem run_listRepos (hs : s.catalog.Furnished) (q : RepoQuery) :
    listRepos q s = (.ok ((q.select s.catalog).map s.catalog.view), s) :=
  run_listRepos_of_known hs.tables fun e _ => hs.kindsKnown e.1

end Store

end RepoCatalog
