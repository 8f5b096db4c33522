import RepoCatalog.Proofs.Effects
import RepoCatalog.Sync.Batch

/-!
# What a batch reads

What a service holds, and which live rows share a name or an identity with a listed repository. The
rows are looked up in parts; together they are what one look-up would find.
-/
namespace RepoCatalog

open Step

namespace Catalog

/-- A repository is what passes see of a live row. -/
def Shows (c : Catalog) (r : Repo) : Prop :=
  ∃ row, c.repos.get? r.id = some row ∧ row.isLive = true ∧ r = c.view (r.id, row)

def isHeld (c : Catalog) (service repo : Int) : Bool :=
  (c.members.get? ⟨repo, service⟩).isSome

/-- What passes see of the rows that satisfy `p`, in the order of their ids. -/
def seen (c : Catalog) (p : Int → RepoRow → Bool) : List Repo :=
  (c.repos.toList.filter fun e => p e.1 e.2).map c.view

/-- Whether a live row shares its name or its identity with a listed repository. -/
def isAkin (sourced : List Repo) (row : RepoRow) : Bool :=
  row.isLive && ((sourced.map (·.lowerName)).contains row.nameKey ||
    (sourced.map (·.spec)).contains row.spec)

theorem mem_seen {c : Catalog} {p : Int → RepoRow → Bool} {r : Repo} : r ∈ c.seen p ↔
    ∃ row, c.repos.get? r.id = some row ∧ p r.id row = true ∧ r = c.view (r.id, row) := by
  unfold seen
  simp only [List.mem_map, List.mem_filter, Prod.exists]
  constructor
  · rintro ⟨id, row, ⟨hrow, hp⟩, rfl⟩
    exact ⟨row, Table.get?_eq_some_iff.mpr hrow, hp, rfl⟩
  · rintro ⟨row, hrow, hp, hr⟩
    exact ⟨r.id, row, ⟨Table.get?_eq_some_iff.mp hrow, hp⟩, hr.symm⟩

def seenById (c : Catalog) (p : Int → RepoRow → Bool) : Dict Int Repo :=
  ⟨(c.repos.toList.filter fun e => p e.1 e.2).map fun e => (e.1, c.view e), by
    rw [List.pairwise_map]
    exact c.repos.rows.sorted.filter _⟩

theorem get?_seenById {c : Catalog} {p : Int → RepoRow → Bool} {id : Int} {r : Repo} :
    (c.seenById p).get? id = some r ↔ r ∈ c.seen p ∧ r.id = id := by
  rw [Dict.get?_eq_some_iff]
  unfold seenById seen
  simp only [List.mem_map, Prod.mk.injEq]
  constructor
  · rintro ⟨e, he, rfl, rfl⟩
    exact ⟨⟨e, he, rfl⟩, rfl⟩
  · rintro ⟨⟨e, he, rfl⟩, rfl⟩
    exact ⟨e, he, rfl, rfl⟩

theorem values_seenById (c : Catalog) (p : Int → RepoRow → Bool) :
    (c.seenById p).values = c.seen p := by
  unfold Dict.values seenById seen
  rw [List.map_map]
  rfl

theorem Shows.said {c : Catalog} {r : Repo} (h : c.Shows r) {row : RepoRow}
    (hrow : c.repos.get? r.id = some row) : row.spec = r.spec ∧ row.name = r.name := by
  obtain ⟨row', hrow', -, hview⟩ := h
  cases hrow.symm.trans hrow'
  rw [hview]
  exact ⟨rfl, rfl⟩

theorem Shows.eq_of_id {c : Catalog} {a b : Repo} (ha : c.Shows a) (hb : c.Shows b)
    (h : a.id = b.id) : a = b := by
  obtain ⟨row, hrow, -, ha⟩ := ha
  obtain ⟨row', hrow', -, hb⟩ := hb
  rw [h, hrow'] at hrow
  cases hrow
  rw [ha, hb, h]

theorem Shows.eq_of_spec {c : Catalog} {a b : Repo} (ha : c.Shows a) (hb : c.Shows b)
    (h : a.spec = b.spec) : a = b := by
  refine ha.eq_of_id hb ?_
  obtain ⟨row, hrow, -, ha⟩ := ha
  obtain ⟨row', hrow', -, hb⟩ := hb
  rw [ha, hb] at h
  exact spec_inj hrow hrow' h

theorem pairwise_seen (c : Catalog) (p : Int → RepoRow → Bool) :
    (c.seen p).Pairwise fun a b => a.id < b.id := by
  unfold seen
  rw [List.pairwise_map]
  refine (c.repos.rows.sorted.filter _).imp fun {a b} hab => ?_
  exact Std.compare_eq_lt.mp hab

end Catalog

namespace RepoQuery

theorem select_services (c : Catalog) (service : Int) :
    ({ RepoQuery.all with services := [service] } : RepoQuery).select c =
      c.repos.toList.filter fun e => e.2.isLive && c.isHeld service e.1 := by
  unfold select
  refine List.filter_congr fun e _ => ?_
  have hheld : (((c.members.entries.filter fun e => [service].contains e.1.service).map
      (·.1.repo)).contains e.1) = c.isHeld service e.1 := by
    rw [Bool.eq_iff_iff, List.contains_iff_mem]
    unfold Catalog.isHeld
    rw [Option.isSome_iff_exists]
    simp only [List.mem_map, List.mem_filter, Dict.get?_eq_some_iff, Prod.exists]
    constructor
    · rintro ⟨⟨repo, s⟩, m, ⟨hmem, hs⟩, rfl⟩
      have hs : s = service := by simpa using hs
      subst hs
      exact ⟨m, hmem⟩
    · rintro ⟨m, hmem⟩
      exact ⟨⟨e.1, service⟩, m, ⟨hmem, by simp⟩, rfl⟩
  have hanswers : ∀ held wanted, ({ RepoQuery.all with services := [service] } : RepoQuery).answers
      held wanted e.1 e.2 = [held.contains e.1] := fun _ _ => rfl
  simp only [hanswers]
  rw [← hheld]
  simp [all]

/-- The query for the live rows that are akin to some listed repositories. -/
def akinTo (sourced : List Repo) : RepoQuery :=
  { RepoQuery.all with
    names := sourced.map (·.name)
    specs := sourced.map (·.spec)
    anyOf := true }

theorem select_akinTo (c : Catalog) {sourced : List Repo} (h : sourced ≠ []) :
    (akinTo sourced).select c = c.repos.toList.filter fun e => Catalog.isAkin sourced e.2 := by
  unfold select
  refine List.filter_congr fun e _ => ?_
  have hnames : (sourced.map (·.name)).map Text.lowerCase = sourced.map (·.lowerName) := by
    rw [List.map_map]
    rfl
  unfold Catalog.isAkin
  cases sourced with
  | nil => exact absurd rfl h
  | cons r rs =>
      cases hlive : e.2.isLive <;>
        simp [answers, akinTo, all, hlive, ← hnames]

end RepoQuery

namespace Syncer

variable {c : Catalog} {w w' : World}

theorem isAkin_chunksOf (n : Nat) (sourced : List Repo) (row : RepoRow) :
    Catalog.isAkin sourced row = true ↔
      ∃ part ∈ chunksOf n sourced, Catalog.isAkin part row = true := by
  have hmem : ∀ r, r ∈ sourced ↔ ∃ part ∈ chunksOf n sourced, r ∈ part := by
    intro r
    rw [← List.mem_flatten, flatten_chunksOf]
  unfold Catalog.isAkin
  simp only [Bool.and_eq_true, Bool.or_eq_true, List.contains_iff_mem, List.mem_map, hmem]
  constructor
  · rintro ⟨hlive, ⟨r, ⟨part, hpart, hr⟩, hkey⟩ | ⟨r, ⟨part, hpart, hr⟩, hkey⟩⟩
    · exact ⟨part, hpart, hlive, .inl ⟨r, hr, hkey⟩⟩
    · exact ⟨part, hpart, hlive, .inr ⟨r, hr, hkey⟩⟩
  · rintro ⟨part, hpart, hlive, ⟨r, hr, hkey⟩ | ⟨r, hr, hkey⟩⟩
    · exact ⟨hlive, .inl ⟨r, ⟨part, hpart, hr⟩, hkey⟩⟩
    · exact ⟨hlive, .inr ⟨r, ⟨part, hpart, hr⟩, hkey⟩⟩

/-- What is found in parts is what would be found at once. -/
theorem values_of_chunks (c : Catalog) (n : Nat) (sourced : List Repo) :
    (Dict.ofList (((chunksOf n sourced).map fun part =>
      c.seen fun _ row => Catalog.isAkin part row).flatten.map fun r => (r.id, r))).values =
      c.seen fun _ row => Catalog.isAkin sourced row := by
  have hparts : ∀ id r, (id, r) ∈ (((chunksOf n sourced).map fun part =>
      c.seen fun _ row => Catalog.isAkin part row).flatten.map fun r => (r.id, r)) ↔
      (c.seenById fun _ row => Catalog.isAkin sourced row).get? id = some r := by
    intro id r
    rw [Catalog.get?_seenById]
    simp only [List.mem_map, List.mem_flatten, Prod.mk.injEq, Catalog.mem_seen]
    constructor
    · rintro ⟨x, ⟨_, ⟨part, hpart, rfl⟩, hx⟩, rfl, rfl⟩
      obtain ⟨row, hrow, hakin, hr⟩ := Catalog.mem_seen.mp hx
      exact ⟨⟨row, hrow, (isAkin_chunksOf n sourced row).mpr ⟨part, hpart, hakin⟩, hr⟩, rfl⟩
    · rintro ⟨⟨row, hrow, hakin, hr⟩, rfl⟩
      obtain ⟨part, hpart, hakin⟩ := (isAkin_chunksOf n sourced row).mp hakin
      exact ⟨r, ⟨_, ⟨part, hpart, rfl⟩, Catalog.mem_seen.mpr ⟨row, hrow, hakin, hr⟩⟩, rfl, rfl⟩
  rw [Dict.ofList_eq_of_mem_iff hparts, Catalog.values_seenById]

/-- One part of the rows that are akin to listed repositories. -/
def lookUp (part : List Repo) : Pass (List Repo) :=
  Effect.store "listing conflicting repos" .listRepos (Store.listRepos (RepoQuery.akinTo part))

theorem run_lookUp {s : Store} (hs : s.catalog.Furnished) {part : List Repo} (hpart : part ≠ []) :
    Store.listRepos (RepoQuery.akinTo part) s =
      (.ok (s.catalog.seen fun _ row => Catalog.isAkin part row), s) := by
  rw [Store.run_listRepos hs, RepoQuery.select_akinTo _ hpart]
  rfl

theorem lookUp_ok {s t : Store} (hs : s.catalog.Complete) {part found : List Repo}
    (hpart : part ≠ []) (h : Store.listRepos (RepoQuery.akinTo part) s = (.ok found, t)) :
    found = (s.catalog.seen fun _ row => Catalog.isAkin part row) ∧ t = s := by
  obtain ⟨hfound, ht, -⟩ := Store.listRepos_ok hs h
  rw [RepoQuery.select_akinTo _ hpart] at hfound
  exact ⟨hfound, ht⟩

theorem listRelated_eq (sourced : List Repo) : listRelated sourced = (do
    let found ← (chunksOf (lookupSize - 1) sourced).mapM lookUp
    return (Dict.ofList (found.flatten.map fun r => (r.id, r))).values) := rfl

/-- The rows that share a name or an identity with a listed repository are those that are akin to
it; looking them up leaves the store as it is. -/
theorem listRelated_ok (hs : w.store.catalog.Complete) {sourced found : List Repo}
    (h : listRelated sourced w = (.ok found, w')) :
    found = (w.store.catalog.seen fun _ row => Catalog.isAkin sourced row) ∧
      w'.store = w.store := by
  rw [listRelated_eq] at h
  obtain ⟨parts, v, hparts, hend⟩ := bind_ok_iff.mp h
  cases hend
  have hall := mapM_ok (I := fun v : World => v.store = w.store)
    (g := fun part => w.store.catalog.seen fun _ row => Catalog.isAkin part row) ?_ rfl hparts
  · obtain ⟨rfl, hstore⟩ := hall
    exact ⟨values_of_chunks _ _ _, hstore⟩
  · intro part hpart v b t hv hrun
    have hstep := Effect.store_ok hrun
    rw [hv] at hstep
    exact lookUp_ok hs (ne_nil_of_mem_chunksOf hpart) hstep

theorem run_listRelated (hs : w.store.catalog.Furnished) (hfaults : w.faults = [])
    (sourced : List Repo) : listRelated sourced w =
      (.ok (w.store.catalog.seen fun _ row => Catalog.isAkin sourced row), w) := by
  have hall : (chunksOf (lookupSize - 1) sourced).mapM lookUp w =
      (.ok ((chunksOf (lookupSize - 1) sourced).map fun part =>
        w.store.catalog.seen fun _ row => Catalog.isAkin part row), w) :=
    mapM_of_ok fun part hpart =>
      Effect.run_store hfaults _ _ (run_lookUp hs (ne_nil_of_mem_chunksOf hpart))
  rw [listRelated_eq, bind_of_ok hall, run_pure, values_of_chunks]

def heldBy (c : Catalog) (service : Int) : List Repo :=
  c.seen fun id row => row.isLive && c.isHeld service id

def stakeIn (c : Catalog) (service : Int) (sourced : List Repo) : Stake :=
  stakeOf sourced (heldBy c service) (c.seen fun _ row => Catalog.isAkin sourced row)

theorem run_held {s : Store} (hs : s.catalog.Furnished) (service : Int) :
    Store.listRepos { RepoQuery.all with services := [service] } s =
      (.ok (heldBy s.catalog service), s) := by
  rw [Store.run_listRepos hs, RepoQuery.select_services]
  rfl

theorem held_ok {s t : Store} (hs : s.catalog.Complete) {service : Int} {held : List Repo}
    (h : Store.listRepos { RepoQuery.all with services := [service] } s = (.ok held, t)) :
    held = heldBy s.catalog service ∧ t = s := by
  obtain ⟨hheld, ht, -⟩ := Store.listRepos_ok hs h
  rw [RepoQuery.select_services] at hheld
  exact ⟨hheld, ht⟩

theorem mem_heldBy {service : Int} {r : Repo} :
    r ∈ heldBy c service ↔ c.Shows r ∧ c.isHeld service r.id = true := by
  unfold heldBy
  rw [Catalog.mem_seen]
  constructor
  · rintro ⟨row, hrow, hp, hr⟩
    rw [Bool.and_eq_true] at hp
    exact ⟨⟨row, hrow, hp.1, hr⟩, hp.2⟩
  · rintro ⟨⟨row, hrow, hlive, hr⟩, hheld⟩
    exact ⟨row, hrow, by rw [hlive, hheld]; rfl, hr⟩

theorem mem_akin {sourced : List Repo} {r : Repo} :
    r ∈ (c.seen fun _ row => Catalog.isAkin sourced row) ↔ c.Shows r ∧
      ((∃ x ∈ sourced, x.lowerName = Text.Ascii.lower r.name) ∨
        ∃ x ∈ sourced, x.spec = r.spec) := by
  have hakin : ∀ row, r = c.view (r.id, row) → (Catalog.isAkin sourced row = true ↔
      row.isLive = true ∧
        ((∃ x ∈ sourced, x.lowerName = Text.Ascii.lower r.name) ∨
          ∃ x ∈ sourced, x.spec = r.spec)) := by
    intro row hr
    have hname : Text.Ascii.lower r.name = row.nameKey := by
      rw [hr]
      rfl
    have hspec : r.spec = row.spec := by
      rw [hr]
      rfl
    unfold Catalog.isAkin
    rw [hname, hspec]
    simp
  rw [Catalog.mem_seen]
  constructor
  · rintro ⟨row, hrow, hp, hr⟩
    obtain ⟨hlive, hkeys⟩ := (hakin row hr).mp hp
    exact ⟨⟨row, hrow, hlive, hr⟩, hkeys⟩
  · rintro ⟨⟨row, hrow, hlive, hr⟩, hkeys⟩
    exact ⟨row, hrow, (hakin row hr).mpr ⟨hlive, hkeys⟩, hr⟩

theorem mem_others {service : Int} {sourced : List Repo} {r : Repo} :
    r ∈ ((c.seen fun _ row => Catalog.isAkin sourced row).filter fun r =>
        !(heldBy c service).any fun h => h.id == r.id) ↔
      c.Shows r ∧ c.isHeld service r.id = false ∧
        ((∃ x ∈ sourced, x.lowerName = Text.Ascii.lower r.name) ∨
          ∃ x ∈ sourced, x.spec = r.spec) := by
  rw [List.mem_filter, mem_akin, Bool.not_eq_true', List.any_eq_false]
  constructor
  · rintro ⟨⟨hshows, hkeys⟩, hnone⟩
    refine ⟨hshows, ?_, hkeys⟩
    rw [Bool.eq_false_iff]
    intro hheld
    exact hnone r (mem_heldBy.mpr ⟨hshows, hheld⟩) (beq_self_eq_true _)
  · rintro ⟨hshows, hfree, hkeys⟩
    refine ⟨⟨hshows, hkeys⟩, fun h hh => ?_⟩
    rw [beq_iff_eq]
    intro hid
    have hheld := (mem_heldBy.mp hh).2
    rw [hid, hfree] at hheld
    cases hheld

theorem mem_stored {service : Int} {sourced : List Repo} {r : Repo} :
    r ∈ (stakeIn c service sourced).stored ↔ c.Shows r ∧
      (c.isHeld service r.id = true ∨ ∃ x ∈ sourced, x.spec = r.spec) := by
  unfold stakeIn stakeOf
  simp only [List.partition_eq_filter_filter]
  rw [List.mem_append, List.mem_filter, mem_others, mem_heldBy]
  have hany : (sourced.any fun s => s.spec == r.spec) = true ↔ ∃ x ∈ sourced, x.spec = r.spec := by
    simp
  rw [hany]
  constructor
  · rintro (⟨hshows, hheld⟩ | ⟨⟨hshows, -, -⟩, hspec⟩)
    · exact ⟨hshows, .inl hheld⟩
    · exact ⟨hshows, .inr hspec⟩
  · rintro ⟨hshows, hkeys⟩
    by_cases hheld : c.isHeld service r.id = true
    · exact .inl ⟨hshows, hheld⟩
    · have hspec := hkeys.resolve_left hheld
      exact .inr ⟨⟨hshows, Bool.eq_false_iff.mpr hheld, .inr hspec⟩, hspec⟩

theorem mem_conflicting {service : Int} {sourced : List Repo} {r : Repo} :
    r ∈ (stakeIn c service sourced).conflicting ↔ c.Shows r ∧ c.isHeld service r.id = false ∧
      (∀ x ∈ sourced, x.spec ≠ r.spec) ∧
        ∃ x ∈ sourced, x.lowerName = Text.Ascii.lower r.name := by
  unfold stakeIn stakeOf
  simp only [List.partition_eq_filter_filter]
  rw [List.mem_filter, mem_others]
  have hany : (not ∘ fun r : Repo => sourced.any fun s => s.spec == r.spec) r = true ↔
      ∀ x ∈ sourced, x.spec ≠ r.spec := by
    simp
  rw [hany]
  constructor
  · rintro ⟨⟨hshows, hfree, hkeys⟩, hspec⟩
    refine ⟨hshows, hfree, hspec, hkeys.resolve_right ?_⟩
    rintro ⟨x, hx, heq⟩
    exact hspec x hx heq
  · rintro ⟨hshows, hfree, hspec, hname⟩
    exact ⟨⟨hshows, hfree, .inl hname⟩, hspec⟩

/-- What is at stake comes in two runs, each in the order of the ids: first what the service holds,
then what it does not hold. -/
theorem stored_eq (c : Catalog) (service : Int) (sourced : List Repo) :
    ∃ same, (stakeIn c service sourced).stored = heldBy c service ++ same ∧
      (same.Pairwise fun a b => a.id < b.id) ∧ ∀ r ∈ same, c.isHeld service r.id = false := by
  unfold stakeIn stakeOf
  simp only [List.partition_eq_filter_filter]
  refine ⟨_, rfl, ?_, fun r hr => ?_⟩
  · exact ((c.pairwise_seen _).filter _).filter _
  · exact (mem_others.mp (List.mem_filter.mp hr).1).2.1

theorem pairwise_stored (c : Catalog) (service : Int) (sourced : List Repo) :
    (stakeIn c service sourced).stored.Pairwise fun a b => a.spec ≠ b.spec := by
  have hids : (stakeIn c service sourced).stored.Pairwise fun a b => a.id ≠ b.id := by
    obtain ⟨same, heq, hsame, hfree⟩ := stored_eq c service sourced
    rw [heq, List.pairwise_append]
    refine ⟨(c.pairwise_seen _).imp Int.ne_of_lt, hsame.imp Int.ne_of_lt, fun a ha b hb hid => ?_⟩
    have hheld := (mem_heldBy.mp ha).2
    rw [hid, hfree b hb] at hheld
    cases hheld
  refine hids.imp_of_mem fun {a b} ha hb hne hspec => hne ?_
  rw [(mem_stored.mp ha).1.eq_of_spec (mem_stored.mp hb).1 hspec]

end Syncer

end RepoCatalog
