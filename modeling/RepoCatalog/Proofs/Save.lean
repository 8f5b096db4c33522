import Mathlib.Data.List.Forall2
import RepoCatalog.Proofs.StoreRun

/-!
# Writing repositories

A repository is written into one row: the row of its id, the row of its identity if it has no id, or
a new one. The write goes through unless another row has its identity, or another live row its name.
-/
namespace RepoCatalog

open Time (Instant)

theorem exists_of_mem_left {α β : Type} {R : α → β → Prop} {xs : List α} {ys : List β}
    (h : List.Forall₂ R xs ys) {x : α} (hx : x ∈ xs) : ∃ y ∈ ys, R x y := by
  induction h with
  | nil => cases hx
  | cons hxy _ ih =>
      rcases List.mem_cons.mp hx with rfl | hx
      · exact ⟨_, List.mem_cons_self, hxy⟩
      · obtain ⟨y, hy, hxy⟩ := ih hx
        exact ⟨y, List.mem_cons_of_mem _ hy, hxy⟩

theorem exists_of_mem_right {α β : Type} {R : α → β → Prop} {xs : List α} {ys : List β}
    (h : List.Forall₂ R xs ys) {y : β} (hy : y ∈ ys) : ∃ x ∈ xs, R x y :=
  exists_of_mem_left h.flip hy

/-- The row that a repository amounts to. -/
def Repo.row (r : Repo) : RepoRow :=
  RepoRow.ofRepo r (r.createdAt.getD default) (r.updatedAt.getD default)

/-- A repository as it comes back from a write at a given time. -/
def Repo.written (r : Repo) (id : Int) (now : Instant) : Repo :=
  { r with
    id := id
    createdAt := some (r.createdAt.getD now)
    updatedAt := some (r.updatedAt.getD now) }

namespace Catalog

/-- The row that a repository without an id takes over. -/
def heirOf? (c : Catalog) (spec : Spec) : Option (Int × RepoRow) :=
  if spec.isEmpty then none else c.repos.toList.find? fun e => e.2.spec == spec

/-- A repository with the id under which it is written, if that is known beforehand. -/
def addressed (c : Catalog) (r : Repo) : Repo :=
  if r.id = 0 then
    match c.heirOf? r.spec with
    | some (id, row) => { r with id, createdAt := r.createdAt <|> some row.createdAt }
    | none => r
  else r

/-- The id under which a repository is written. -/
def targetOf (c : Catalog) (r : Repo) : Int :=
  if (c.addressed r).id = 0 then c.repos.nextId else (c.addressed r).id

/-- What the catalog `d` holds once `r` was written into `c` and came back as `r'`. -/
structure Saved (c : Catalog) (r r' : Repo) (d : Catalog) : Prop where
  setting : SameSetting c d
  members : d.members = c.members
  lastId : c.repos.lastId ≤ d.repos.lastId
  target : r'.id = c.targetOf r
  same : r' = { r with id := r'.id, createdAt := r'.createdAt, updatedAt := r'.updatedAt }
  repos : ∀ j, d.repos.get? j = if j = r'.id then some r'.row else c.repos.get? j
  ownSpec : ∀ j row, c.repos.get? j = some row → row.spec = r.spec → j = r'.id
  ownName : r.deletedAt = none → ∀ j row, c.repos.get? j = some row → row.isLive = true →
    row.nameKey = Text.Ascii.lower r.name → j = r'.id

theorem addressed_eq (c : Catalog) (r : Repo) :
    c.addressed r =
      { r with id := (c.addressed r).id, createdAt := (c.addressed r).createdAt } := by
  unfold addressed
  split
  · split <;> rfl
  · rfl

theorem targetOf_of_id {c : Catalog} {r : Repo} (h : r.id ≠ 0) : c.targetOf r = r.id := by
  unfold targetOf addressed
  rw [if_neg h, if_neg h]

theorem heirOf?_of_spec {c : Catalog} {spec : Spec} {id : Int} {row : RepoRow}
    (hspec : spec.isEmpty = false) (hrow : c.repos.get? id = some row) (h : row.spec = spec) :
    c.heirOf? spec = some (id, row) := by
  unfold heirOf?
  rw [hspec]
  cases hfind : c.repos.toList.find? fun e => e.2.spec == spec with
  | none =>
      have hno := List.find?_eq_none.mp hfind (id, row) (Table.get?_eq_some_iff.mp hrow)
      simp [h] at hno
  | some e =>
      have he := Table.get?_eq_some_iff.mpr (List.mem_of_find?_eq_some hfind)
      have hes : e.2.spec = spec := by simpa using List.find?_some hfind
      have hid : e.1 = id := spec_inj he hrow (hes.trans h.symm)
      rw [hid, hrow] at he
      cases e
      cases he
      simp only at hid
      subst hid
      rfl

theorem spec_of_heirOf? {c : Catalog} {spec : Spec} {e : Int × RepoRow}
    (h : c.heirOf? spec = some e) : c.repos.get? e.1 = some e.2 ∧ e.2.spec = spec := by
  unfold heirOf? at h
  split at h
  · cases h
  · exact ⟨Table.get?_eq_some_iff.mpr (List.mem_of_find?_eq_some h),
      by simpa using List.find?_some h⟩

theorem addressed_id {c : Catalog} {r : Repo} (h : r.id = 0 ∨ c.repos.contains r.id = true) :
    (c.addressed r).id = 0 ∨ c.repos.contains (c.addressed r).id = true := by
  unfold addressed
  by_cases hid : r.id = 0
  · rw [if_pos hid]
    cases hheir : c.heirOf? r.spec with
    | none => exact .inl hid
    | some e =>
        obtain ⟨id, row⟩ := e
        exact .inr (Option.isSome_iff_exists.mpr ⟨row, (spec_of_heirOf? hheir).1⟩)
  · rw [if_neg hid]
    exact h

theorem targetOf_cases (c : Catalog) {r : Repo} (hid : r.id = 0) :
    (c.targetOf r = c.repos.nextId) ∨
      ∃ row, c.repos.get? (c.targetOf r) = some row ∧ row.spec = r.spec := by
  unfold targetOf addressed
  rw [if_pos hid]
  cases hheir : c.heirOf? r.spec with
  | none =>
      simp only [hid, if_true]
      exact .inl trivial
  | some e =>
      obtain ⟨id, row⟩ := e
      by_cases h : id = 0
      · simp only [h, if_true]
        exact .inl trivial
      · simp only [h, if_false]
        exact .inr ⟨row, spec_of_heirOf? hheir⟩

theorem targetOf_of_spec {c : Catalog} {r : Repo} {id : Int} {row : RepoRow} (hr : r.id = 0)
    (hspec : r.spec.isEmpty = false) (hrow : c.repos.get? id = some row) (h : row.spec = r.spec)
    (hid : id ≠ 0) : c.targetOf r = id := by
  unfold targetOf addressed
  rw [if_pos hr, heirOf?_of_spec hspec hrow h]
  simp only [hid, if_false]

/-- A repository has no id, or that of a row of its identity. -/
def Fits (c : Catalog) (r : Repo) : Prop :=
  r.id = 0 ∨ ∃ row, c.repos.get? r.id = some row ∧ row.spec = r.spec

/-- The row under which a repository came back, as seen from the catalog before the write. -/
structure Placed (c : Catalog) (r r' : Repo) : Prop where
  same : r' = { r with id := r'.id, createdAt := r'.createdAt, updatedAt := r'.updatedAt }
  kept : r.id ≠ 0 → r'.id = r.id
  ownSpec : ∀ j row, c.repos.get? j = some row → row.spec = r.spec → j = r'.id
  home : ∀ row, c.repos.get? r'.id = some row → row.spec = r.spec
  fresh : c.repos.get? r'.id = none → c.repos.lastId < r'.id

theorem Placed.spec {c : Catalog} {r r' : Repo} (h : c.Placed r r') : r'.spec = r.spec := by
  rw [h.same]

theorem Placed.of_specs {c d : Catalog} {r r' : Repo} (h : d.Placed r r')
    (hspecs : ∀ j spec, (∃ row, d.repos.get? j = some row ∧ row.spec = spec) ↔
      ∃ row, c.repos.get? j = some row ∧ row.spec = spec)
    (hlast : d.repos.lastId = c.repos.lastId) : c.Placed r r' := by
  refine ⟨h.same, h.kept, ?_, ?_, ?_⟩
  · intro j row hrow hspec
    obtain ⟨row', hrow', hspec'⟩ := (hspecs j r.spec).mpr ⟨row, hrow, hspec⟩
    exact h.ownSpec j row' hrow' hspec'
  · intro row hrow
    obtain ⟨row', hrow', hspec'⟩ := (hspecs r'.id row.spec).mpr ⟨row, hrow, rfl⟩
    rw [← hspec']
    exact h.home row' hrow'
  · intro hnone
    rw [← hlast]
    refine h.fresh ?_
    cases hrow : d.repos.get? r'.id with
    | none => rfl
    | some row =>
        obtain ⟨row', hrow', -⟩ := (hspecs r'.id row.spec).mp ⟨row, hrow, rfl⟩
        rw [hnone] at hrow'
        cases hrow'

theorem Saved.placed {c d : Catalog} {r r' : Repo} (h : Saved c r r' d) (hfit : c.Fits r) :
    c.Placed r r' := by
  have hid : r.id ≠ 0 → r'.id = r.id := fun hne => h.target.trans (targetOf_of_id hne)
  refine ⟨h.same, hid, h.ownSpec, ?_, ?_⟩
  · intro row hrow
    rcases hfit with hzero | ⟨old, hold, hspec⟩
    · rw [h.target] at hrow
      rcases targetOf_cases c hzero with hnew | ⟨old, hold, hspec⟩
      · rw [hnew, Table.get?_nextId] at hrow
        cases hrow
      · cases hold.symm.trans hrow
        exact hspec
    · by_cases hzero : r.id = 0
      · have hown := h.ownSpec _ _ hold hspec
        rw [← hown, hold] at hrow
        cases hrow
        exact hspec
      · rw [hid hzero, hold] at hrow
        cases hrow
        exact hspec
  · intro hnone
    rcases hfit with hzero | ⟨old, hold, hspec⟩
    · rcases targetOf_cases c hzero with hnew | ⟨old, hold, -⟩
      · rw [h.target, hnew]
        exact Int.lt_add_one_of_le (Int.le_refl _)
      · rw [h.target, hold] at hnone
        cases hnone
    · rw [← h.ownSpec _ _ hold hspec, hold] at hnone
      cases hnone

/-- One write changes the row of one identity. -/
theorem Saved.get?_iff {c d : Catalog} {r r' : Repo} (h : Saved c r r' d) (hfit : c.Fits r)
    {j : Int} {row : RepoRow} :
    d.repos.get? j = some row ↔
      (r'.id = j ∧ r'.row = row) ∨ (c.repos.get? j = some row ∧ r.spec ≠ row.spec) := by
  rw [h.repos]
  by_cases hj : j = r'.id
  · rw [if_pos hj]
    constructor
    · intro hrow
      exact .inl ⟨hj.symm, Option.some.inj hrow⟩
    · rintro (⟨-, hrow⟩ | ⟨hget, hne⟩)
      · rw [hrow]
      · exact absurd ((h.placed hfit).home row (hj ▸ hget)).symm hne
  · rw [if_neg hj]
    constructor
    · intro hget
      exact .inr ⟨hget, fun heq => hj (h.ownSpec j row hget heq.symm)⟩
    · rintro (⟨heq, -⟩ | ⟨hget, -⟩)
      · exact absurd heq.symm hj
      · exact hget

/-- The row of a repository breaks no rule where it is written. -/
structure Clear (c : Catalog) (r : Repo) : Prop where
  id : r.id = 0 ∨ c.repos.contains r.id = true
  spec : ∀ j row, c.repos.get? j = some row → row.spec = r.spec → j = c.targetOf r
  name : r.deletedAt = none → ∀ j row, c.repos.get? j = some row → row.isLive = true →
    row.nameKey = Text.Ascii.lower r.name → j = c.targetOf r

/-- `d` comes from `c` by writing `rs` in turn, and they came back as `rs'`. -/
inductive SavedAll : Catalog → List Repo → List Repo → Catalog → Prop where
  | nil (c : Catalog) : SavedAll c [] [] c
  | cons {c d e : Catalog} {r r' : Repo} {rs rs' : List Repo} :
      Saved c r r' d → SavedAll d rs rs' e → SavedAll c (r :: rs) (r' :: rs') e

namespace SavedAll

variable {c d : Catalog} {rs rs' : List Repo}

theorem setting (h : SavedAll c rs rs' d) : SameSetting c d := by
  induction h with
  | nil c => exact .refl c
  | cons hsaved _ ih => exact hsaved.setting.trans ih

theorem members (h : SavedAll c rs rs' d) : d.members = c.members := by
  induction h with
  | nil c => rfl
  | cons hsaved _ ih => exact ih.trans hsaved.members

theorem length (h : SavedAll c rs rs' d) : rs.length = rs'.length := by
  induction h with
  | nil c => rfl
  | cons _ _ ih => exact congrArg Nat.succ ih

theorem append {e : Catalog} {qs qs' : List Repo} (h : SavedAll c rs rs' d)
    (h' : SavedAll d qs qs' e) : SavedAll c (rs ++ qs) (rs' ++ qs') e := by
  induction h with
  | nil c => exact h'
  | cons hsaved _ ih => exact .cons hsaved (ih h')

theorem split {x : Repo} {pre post : List Repo} (h : SavedAll c (pre ++ x :: post) rs' d) :
    ∃ pre' c₁ x' c₂, SavedAll c pre pre' c₁ ∧ Saved c₁ x x' c₂ := by
  induction pre generalizing c rs' with
  | nil =>
      cases h with
      | cons hsaved _ => exact ⟨_, _, _, _, .nil c, hsaved⟩
  | cons r pre ih =>
      cases h with
      | cons hsaved hrest =>
          obtain ⟨pre', c₁, x', c₂, hpre, hx⟩ := ih hrest
          exact ⟨_, c₁, x', c₂, .cons hsaved hpre, hx⟩

theorem lastId (h : SavedAll c rs rs' d) : c.repos.lastId ≤ d.repos.lastId := by
  induction h with
  | nil c => exact Int.le_refl _
  | cons hsaved _ ih => exact Int.le_trans hsaved.lastId ih

theorem fits_of_saved {r r' x : Repo} (hsaved : Saved c r r' d) (hfit : c.Fits r)
    (hx : c.Fits x) (hne : r.spec ≠ x.spec) : d.Fits x := by
  rcases hx with hzero | ⟨row, hrow, hspec⟩
  · exact .inl hzero
  · exact .inr ⟨row, (hsaved.get?_iff hfit).mpr (.inr ⟨hrow, hspec ▸ hne⟩), hspec⟩

theorem get?_iff (h : SavedAll c rs rs' d) (hfits : ∀ r ∈ rs, c.Fits r)
    (hspecs : rs.Pairwise fun a b => a.spec ≠ b.spec) {j : Int} {row : RepoRow} :
    d.repos.get? j = some row ↔
      (∃ r' ∈ rs', r'.id = j ∧ r'.row = row) ∨
        (c.repos.get? j = some row ∧ ∀ r ∈ rs, r.spec ≠ row.spec) := by
  induction h with
  | nil c => simp
  | @cons c d e r r' rs rs' hsaved _ ih =>
      have hfit := hfits r List.mem_cons_self
      have hne := (List.pairwise_cons.mp hspecs).1
      have hrest : ∀ x ∈ rs, d.Fits x := fun x hx =>
        fits_of_saved hsaved hfit (hfits x (List.mem_cons_of_mem r hx)) (hne x hx)
      rw [ih hrest hspecs.of_cons, hsaved.get?_iff hfit]
      constructor
      · rintro (⟨x, hx, hj, hrow⟩ | ⟨⟨hj, hrow⟩ | ⟨hget, hr⟩, hall⟩)
        · exact .inl ⟨x, List.mem_cons_of_mem r' hx, hj, hrow⟩
        · exact .inl ⟨r', List.mem_cons_self, hj, hrow⟩
        · exact .inr ⟨hget, List.forall_mem_cons.mpr ⟨hr, hall⟩⟩
      · rintro (⟨x, hx, hj, hrow⟩ | ⟨hget, hall⟩)
        · rcases List.mem_cons.mp hx with rfl | hx
          · refine .inr ⟨.inl ⟨hj, hrow⟩, fun y hy heq => hne y hy ?_⟩
            rw [heq, ← hrow, ← (hsaved.placed hfit).spec]
            rfl
          · exact .inl ⟨x, hx, hj, hrow⟩
        · rw [List.forall_mem_cons] at hall
          exact .inr ⟨.inr ⟨hget, hall.1⟩, hall.2⟩

theorem fits_after (h : SavedAll c rs rs' d) (hfits : ∀ r ∈ rs, c.Fits r)
    (hspecs : rs.Pairwise fun a b => a.spec ≠ b.spec) {x : Repo} (hx : c.Fits x)
    (hne : ∀ r ∈ rs, r.spec ≠ x.spec) : d.Fits x := by
  rcases hx with hzero | ⟨row, hrow, hspec⟩
  · exact .inl hzero
  · exact .inr ⟨row, (h.get?_iff hfits hspecs).mpr (.inr ⟨hrow, hspec ▸ hne⟩), hspec⟩

theorem placed_of_saved {r r' x x' : Repo} (hsaved : Saved c r r' d) (hfit : c.Fits r)
    (hne : r.spec ≠ x.spec) (hx : d.Placed x x') : c.Placed x x' := by
  have hother : r'.id ≠ x'.id := by
    intro heq
    have hrow := (hsaved.get?_iff hfit).mpr (.inl ⟨heq, rfl⟩)
    exact hne ((hsaved.placed hfit).spec.symm.trans (hx.home _ hrow))
  have hkeep : ∀ row, c.repos.get? x'.id = some row → d.repos.get? x'.id = some row := by
    intro row hrow
    refine (hsaved.get?_iff hfit).mpr (.inr ⟨hrow, fun heq => hother ?_⟩)
    exact (hsaved.ownSpec _ row hrow heq.symm).symm
  refine ⟨hx.same, hx.kept, ?_, fun row hrow => hx.home row (hkeep row hrow), ?_⟩
  · intro j row hrow hspec
    exact hx.ownSpec j row ((hsaved.get?_iff hfit).mpr (.inr ⟨hrow, hspec ▸ hne⟩)) hspec
  · intro hnone
    have hnone' : d.repos.get? x'.id = none := by
      rw [hsaved.repos, if_neg (Ne.symm hother), hnone]
    exact Int.lt_of_le_of_lt hsaved.lastId (hx.fresh hnone')

theorem placed_before (h : SavedAll c rs rs' d) (hfits : ∀ r ∈ rs, c.Fits r)
    (hspecs : rs.Pairwise fun a b => a.spec ≠ b.spec) {x x' : Repo}
    (hne : ∀ r ∈ rs, r.spec ≠ x.spec) (hx : d.Placed x x') : c.Placed x x' := by
  induction h with
  | nil c => exact hx
  | @cons c d e r r' rs rs' hsaved _ ih =>
      have hfit := hfits r List.mem_cons_self
      have hother := (List.pairwise_cons.mp hspecs).1
      have hrest : ∀ x ∈ rs, d.Fits x := fun x hx =>
        fits_of_saved hsaved hfit (hfits x (List.mem_cons_of_mem r hx)) (hother x hx)
      have hmid := ih hrest hspecs.of_cons (fun y hy => hne y (List.mem_cons_of_mem r hy)) hx
      exact placed_of_saved hsaved hfit (hne r List.mem_cons_self) hmid

theorem placed (h : SavedAll c rs rs' d) (hfits : ∀ r ∈ rs, c.Fits r)
    (hspecs : rs.Pairwise fun a b => a.spec ≠ b.spec) : List.Forall₂ c.Placed rs rs' := by
  induction h with
  | nil c => exact .nil
  | @cons c d e r r' rs rs' hsaved _ ih =>
      have hfit := hfits r List.mem_cons_self
      have hne := (List.pairwise_cons.mp hspecs).1
      have hrest : ∀ x ∈ rs, d.Fits x := fun x hx =>
        fits_of_saved hsaved hfit (hfits x (List.mem_cons_of_mem r hx)) (hne x hx)
      refine .cons (hsaved.placed hfit) ?_
      have hplaced := (List.forall₂_and_left rs rs').mpr ⟨hne, ih hrest hspecs.of_cons⟩
      exact hplaced.imp fun x x' hx => placed_of_saved hsaved hfit hx.1 hx.2

end SavedAll

end Catalog

namespace Store

open Step Catalog

variable {s : Store}

/-- Writes a repository under the id that it has, or a new one. -/
def saveAt (now : Instant) (r : Repo) : StoreM Repo := do
  let createdAt := r.createdAt.getD now
  let updatedAt := r.updatedAt.getD now
  let row := RepoRow.ofRepo r createdAt updatedAt
  let id ←
    if r.id = 0 then write [.repos] fun c => c.addRepo row
    else do
      write [.repos] fun c => c.replaceRepo r.id row
      pure r.id
  return { r with id := id, createdAt := some createdAt, updatedAt := some updatedAt }

theorem run_findBySpec (hs : s.catalog.Complete) (spec : Spec) :
    findBySpec spec s = (.ok (s.catalog.heirOf? spec), s) := by
  unfold findBySpec heirOf?
  split
  · rfl
  · exact run_read hs _ _

theorem run_saveRepo (hs : s.catalog.Complete) (r : Repo) :
    saveRepo r s = saveAt s.clock (s.catalog.addressed r) s.tick := by
  have hs' : s.tick.catalog.Complete := hs
  have hsame : s.tick.catalog = s.catalog := rfl
  unfold saveRepo addressed
  rw [bind_of_ok (run_now s)]
  by_cases hid : r.id = 0
  · rw [if_pos hid, if_pos hid, bind_of_ok (run_findBySpec hs' r.spec), hsame]
    cases s.catalog.heirOf? r.spec with
    | none => rfl
    | some e => rfl
  · rw [if_neg hid, if_neg hid]
    rfl

theorem saveAt_cases (hs : s.catalog.Complete) (now : Instant) (r : Repo) (id : Int)
    (hid : id = if r.id = 0 then s.catalog.repos.nextId else r.id) :
    (∃ d, saveAt now r s = (.ok (r.written id now), { s with catalog := d }) ∧
        s.catalog.repoFault? id r.row = none ∧ SameSetting s.catalog d ∧
        d.members = s.catalog.members ∧ s.catalog.repos.lastId ≤ d.repos.lastId ∧
        ∀ j, d.repos.get? j = if j = id then some (r.written id now).row
          else s.catalog.repos.get? j) ∨
      ∃ e, saveAt now r s = (.error e, s) ∧
        ((r.id = 0 ∨ s.catalog.repos.contains r.id = true) →
          s.catalog.repoFault? id r.row ≠ none) := by
  let row := (r.written id now).row
  unfold saveAt
  by_cases hnew : r.id = 0
  · rw [if_pos hnew] at hid
    rw [if_pos hnew]
    subst hid
    rcases addRepo_cases s.catalog row with
      ⟨fault, hfault, hadd⟩ | ⟨hfault, d, hadd, hsetting, hmembers, hrepos⟩
    · refine .inr ⟨_, bind_of_error (run_write_of_error hs hadd), fun _ hnone => ?_⟩
      cases hnone.symm.trans hfault
    · refine .inl ⟨d, bind_of_ok (run_write_of_ok hs hadd), hfault, hsetting, hmembers,
        ?_, ?_⟩
      · rw [hrepos]
        exact Int.le_of_lt (Int.lt_add_one_of_le (Int.le_refl _))
      · intro j
        rw [hrepos, Table.get?_append]
  · rw [if_neg hnew] at hid
    rw [if_neg hnew]
    subst hid
    by_cases hrow : s.catalog.repos.contains r.id = true
    · rcases replaceRepo_cases row hrow with
        ⟨fault, hfault, hput⟩ | ⟨hfault, d, hput, hsetting, hmembers, hrepos⟩
      · refine .inr ⟨_, bind_of_error (run_write_of_error hs hput), fun _ hnone => ?_⟩
        cases hnone.symm.trans hfault
      · refine .inl ⟨d, bind_of_ok (run_write_of_ok hs hput), hfault, hsetting, hmembers,
          ?_, ?_⟩
        · rw [hrepos]
          exact Int.le_refl _
        · intro j
          rw [hrepos, Table.get?_modify]
          split
          · rename_i hj
            obtain ⟨old, hold⟩ := Option.isSome_iff_exists.mp hrow
            have hget : s.catalog.repos.get? j = some old := hj ▸ hold
            rw [hget]
            rfl
          · rfl
    · have hput : s.catalog.replaceRepo r.id row = .error .nothingUpdated := by
        unfold replaceRepo
        rw [if_neg hrow]
      refine .inr ⟨_, bind_of_error (run_write_of_error hs hput), ?_⟩
      rintro (h | h)
      · exact absurd h hnew
      · exact absurd h hrow

/-- A write goes through and leaves one row written, or it changes nothing. It only fails if the row
would break a rule, as long as there is a row of its id. -/
theorem saveRepo_cases (hs : s.catalog.Complete) (r : Repo) :
    (∃ r' d, saveRepo r s = (.ok r', { s.tick with catalog := d }) ∧ Saved s.catalog r r' d) ∨
      ∃ e, saveRepo r s = (.error e, s.tick) ∧
        ((r.id = 0 ∨ s.catalog.repos.contains r.id = true) →
          s.catalog.repoFault? (s.catalog.targetOf r) r.row ≠ none) := by
  have hs' : s.tick.catalog.Complete := hs
  have haddressed := addressed_eq s.catalog r
  have hrow : s.catalog.repoFault? (s.catalog.targetOf r) (s.catalog.addressed r).row =
      s.catalog.repoFault? (s.catalog.targetOf r) r.row := by
    rw [haddressed]
    rfl
  rw [run_saveRepo hs]
  rcases saveAt_cases hs' s.clock (s.catalog.addressed r) (s.catalog.targetOf r) rfl with
    ⟨d, hrun, hfault, hsetting, hmembers, hlast, hrepos⟩ | ⟨e, hrun, hfault⟩
  · refine .inl ⟨_, d, hrun, ?_⟩
    obtain ⟨hspecs, hnames⟩ := repoFault?_eq_none_iff.mp (hrow.symm.trans hfault)
    exact
      { setting := hsetting
        members := hmembers
        lastId := hlast
        target := rfl
        same := by rw [haddressed]; rfl
        repos := hrepos
        ownSpec := hspecs
        ownName := fun hlive => hnames (Option.isNone_iff_eq_none.mpr hlive) }
  · refine .inr ⟨e, hrun, fun hid hnone => hfault ?_ (hrow.trans hnone)⟩
    exact addressed_id hid

theorem saveRepo_ok (hs : s.catalog.Complete) {r r' : Repo} {t : Store}
    (h : saveRepo r s = (.ok r', t)) :
    Saved s.catalog r r' t.catalog ∧ t.saved = s.saved := by
  rcases saveRepo_cases hs r with ⟨r'', d, hrun, hsaved⟩ | ⟨e, hrun, -⟩
  · cases hrun.symm.trans h
    exact ⟨hsaved, rfl⟩
  · cases hrun.symm.trans h

theorem saveRepo_of_clear (hs : s.catalog.Complete) {r : Repo} (hclear : s.catalog.Clear r) :
    ∃ r' t, saveRepo r s = (.ok r', t) := by
  obtain ⟨hid, hspec, hname⟩ := hclear
  rcases saveRepo_cases hs r with ⟨r', d, hrun, -⟩ | ⟨e, hrun, hfault⟩
  · exact ⟨r', _, hrun⟩
  · have hnone : s.catalog.repoFault? (s.catalog.targetOf r) r.row = none := by
      rw [repoFault?_eq_none_iff]
      exact ⟨hspec, fun hlive => hname (Option.isNone_iff_eq_none.mp hlive)⟩
    exact absurd hnone (hfault hid)

theorem putRepos_ok (hs : s.catalog.Complete) {rs rs' : List Repo} {t : Store}
    (h : putRepos rs s = (.ok rs', t)) :
    SavedAll s.catalog rs rs' t.catalog ∧ t.saved = s.saved := by
  unfold putRepos at h
  induction rs generalizing s rs' with
  | nil =>
      cases h
      exact ⟨.nil _, rfl⟩
  | cons r rs ih =>
      rw [List.mapM_cons] at h
      obtain ⟨r', u, hsave, h⟩ := bind_ok_iff.mp h
      obtain ⟨rest, v, hrest, h⟩ := bind_ok_iff.mp h
      cases h
      obtain ⟨hsaved, hkept⟩ := saveRepo_ok hs hsave
      obtain ⟨hall, hkept'⟩ := ih (hs.of_version hsaved.setting.version) hrest
      exact ⟨.cons hsaved hall, hkept'.trans hkept⟩

/-- Writes go through if each of them is clear once those before it are done. -/
theorem putRepos_total (hs : s.catalog.Complete) (rs : List Repo)
    (h : ∀ pre x post pre' d, rs = pre ++ x :: post → SavedAll s.catalog pre pre' d → d.Clear x) :
    ∃ rs' t, putRepos rs s = (.ok rs', t) := by
  induction rs generalizing s with
  | nil => exact ⟨[], s, rfl⟩
  | cons r rs ih =>
      obtain ⟨r', u, hsave⟩ := saveRepo_of_clear hs (h [] r rs [] _ rfl (.nil _))
      obtain ⟨hsaved, -⟩ := saveRepo_ok hs hsave
      have hlater := hs.of_version hsaved.setting.version
      obtain ⟨rest, t, hrest⟩ := ih hlater fun pre x post pre' d heq hpre =>
        h (r :: pre) x post (r' :: pre') d (by rw [heq, List.cons_append]) (.cons hsaved hpre)
      refine ⟨r' :: rest, t, ?_⟩
      unfold putRepos at hrest ⊢
      rw [List.mapM_cons, bind_of_ok hsave, bind_of_ok hrest]
      rfl

end Store

end RepoCatalog
