import RepoCatalog.Proofs.Calm

/-!
# Names of live repositories

Every name in the catalog was listed, whatever was listed and however passes went. The database
tells the names of live rows apart by the case of basic letters only, and a listed repository looks
for its name in full lower case; so live names differ in more than case if and only if, among the
names that are listed, the two notions of case agree.
-/
namespace RepoCatalog

open Step
open Time (Instant Duration)

namespace Catalog

variable {p : String → Prop} {c d : Catalog}

/-- All names in the catalog satisfy `p`. -/
structure Named (p : String → Prop) (c : Catalog) : Prop extends Rooted c where
  names : ∀ j row, c.repos.get? j = some row → p row.name

/-- What a statement may do to the rows of repositories: one that it finds keeps its name or gets
one that satisfies `p`, and a new one comes at the end with a name that does. -/
structure Grown (p : String → Prop) (c d : Catalog) : Prop where
  furnished : d.Furnished
  lastId : c.repos.lastId ≤ d.repos.lastId
  rows : ∀ j row, d.repos.get? j = some row →
    (∃ old, c.repos.get? j = some old ∧ (row.name = old.name ∨ p row.name)) ∨
      j = c.repos.nextId ∧ p row.name

theorem Grown.of_same (hd : d.Furnished) (hrepos : d.repos = c.repos) : Grown p c d :=
  ⟨hd, hrepos ▸ Int.le_refl _, fun _ row hrow => .inl ⟨row, hrepos ▸ hrow, .inl rfl⟩⟩

theorem name_bury (now : Instant) (row : RepoRow) : (bury now row).name = row.name := by
  unfold bury
  split <;> rfl

theorem grown_buryRepos (hc : c.Furnished) (now : Instant) (q : Int → Bool) :
    Grown p c (c.buryRepos now q) := by
  refine ⟨hc.of_sameSetting (sameSetting_buryRepos c now q), Int.le_refl _, ?_⟩
  intro j row hrow
  rw [get?_buryRepos] at hrow
  obtain ⟨old, hold, rfl⟩ := Option.map_eq_some_iff.mp hrow
  refine .inl ⟨old, hold, .inl ?_⟩
  split
  · exact name_bury now old
  · rfl

theorem grown_addRepo (hc : c.Furnished) {row : RepoRow} {id : Int} (hname : p row.name)
    (h : c.addRepo row = .ok (id, d)) : Grown p c d := by
  rcases addRepo_cases c row with ⟨fault, -, hrefused⟩ | ⟨-, d', hadded, hsetting, -, hrepos⟩
  · cases hrefused.symm.trans h
  cases hadded.symm.trans h
  refine ⟨hc.of_sameSetting hsetting, ?_, ?_⟩
  · rw [hrepos]
    exact Int.le_of_lt (Int.lt_succ _)
  · intro j new hnew
    rw [hrepos, Table.get?_append] at hnew
    split at hnew
    · rename_i hj
      cases hnew
      exact .inr ⟨hj, hname⟩
    · exact .inl ⟨new, hnew, .inl rfl⟩

theorem contains_of_replaceRepo {row : RepoRow} {id : Int} {u : Unit}
    (h : c.replaceRepo id row = .ok (u, d)) : c.repos.contains id = true := by
  unfold replaceRepo at h
  split at h
  · assumption
  · cases h

theorem grown_replaceRepo (hc : c.Furnished) {row : RepoRow} {id : Int} {u : Unit}
    (hname : p row.name) (h : c.replaceRepo id row = .ok (u, d)) : Grown p c d := by
  rcases replaceRepo_cases row (contains_of_replaceRepo h) with
    ⟨fault, -, hrefused⟩ | ⟨-, d', hreplaced, hsetting, -, hrepos⟩
  · cases hrefused.symm.trans h
  cases hreplaced.symm.trans h
  refine ⟨hc.of_sameSetting hsetting, ?_, ?_⟩
  · rw [hrepos]
    exact Int.le_refl _
  · intro j new hnew
    rw [hrepos, Table.get?_modify] at hnew
    split at hnew
    · obtain ⟨old, hold, rfl⟩ := Option.map_eq_some_iff.mp hnew
      exact .inl ⟨old, hold, .inr hname⟩
    · exact .inl ⟨new, hnew, .inl rfl⟩

theorem Write.grown (h : Write p c d) (hc : c.Furnished) : Grown p c d := by
  cases h with
  | bury now q => exact grown_buryRepos hc now q
  | part q => exact .of_same (hc.of_sameSetting (sameSetting_dropMembers c q)) rfl
  | join hput =>
      obtain ⟨hsetting, hrepos, -⟩ := putMember_ok hput
      exact .of_same (hc.of_sameSetting hsetting) hrepos
  | add hname hadd => exact grown_addRepo hc hname hadd
  | replace hname hreplace => exact grown_replaceRepo hc hname hreplace
  | visit hkind hchange =>
      have hvisited := changeService_ok hc hchange hkind
      exact .of_same hvisited.furnished hvisited.repos

theorem Write.named (h : Write p c d) (hc : c.Named p) : d.Named p := by
  have hgrown := h.grown hc.furnished
  refine ⟨⟨hgrown.furnished, Int.le_trans hc.lastId hgrown.lastId, ?_⟩, ?_⟩
  · intro j row hrow
    rcases hgrown.rows j row hrow with ⟨old, hold, -⟩ | ⟨rfl, -⟩
    · exact hc.ids j old hold
    · exact Int.lt_add_one_of_le hc.lastId
  · intro j row hrow
    rcases hgrown.rows j row hrow with ⟨old, hold, hname | hname⟩ | ⟨-, hname⟩
    · exact hname ▸ hc.names j old hold
    · exact hname
    · exact hname

theorem named_of_writes (h : Relation.ReflTransGen (Write p) c d) (hc : c.Named p) : d.Named p := by
  induction h with
  | refl => exact hc
  | tail _ hwrite ih => exact hwrite.named ih

theorem Rooted.of_writes (hc : c.Rooted)
    (h : Relation.ReflTransGen (Write fun _ => True) c d) : d.Rooted :=
  (named_of_writes h ⟨hc, fun _ _ _ => trivial⟩).toRooted

theorem Write.rows (h : Write p c d) (hc : c.Furnished) {j : Int} {old : RepoRow}
    (hold : c.repos.get? j = some old) : ∃ row, d.repos.get? j = some row := by
  cases h with
  | bury now q => exact ⟨_, by rw [get?_buryRepos, hold, Option.map_some]⟩
  | part q => exact ⟨old, hold⟩
  | join hput =>
      obtain ⟨-, hrepos, -⟩ := putMember_ok hput
      exact ⟨old, hrepos ▸ hold⟩
  | @add _ row id hname hadd =>
      rcases addRepo_cases c row with ⟨fault, -, hrefused⟩ | ⟨-, d', hadded, -, -, hrepos⟩
      · cases hrefused.symm.trans hadd
      cases hadded.symm.trans hadd
      rw [hrepos, Table.get?_append]
      split
      · exact ⟨row, rfl⟩
      · exact ⟨old, hold⟩
  | @replace _ row id u hname hreplace =>
      rcases replaceRepo_cases row (contains_of_replaceRepo hreplace) with
        ⟨fault, -, hrefused⟩ | ⟨-, d', hreplaced, -, -, hrepos⟩
      · cases hrefused.symm.trans hreplace
      cases hreplaced.symm.trans hreplace
      rw [hrepos, Table.get?_modify, hold]
      split
      · exact ⟨row, rfl⟩
      · exact ⟨old, rfl⟩
  | visit hkind hchange => exact ⟨old, (changeService_ok hc hchange hkind).repos ▸ hold⟩

theorem rows_of_writes (hc : c.Rooted) (h : Relation.ReflTransGen (Write fun _ => True) c d)
    {j : Int} {old : RepoRow} (hold : c.repos.get? j = some old) :
    ∃ row, d.repos.get? j = some row := by
  induction h with
  | refl => exact ⟨old, hold⟩
  | tail hbefore hwrite ih =>
      obtain ⟨row, hrow⟩ := ih
      exact hwrite.rows (hc.of_writes hbefore).furnished hrow

end Catalog

namespace Syncer

open Effect Catalog

variable {y : Syncer} {svc : Service} {least : Duration} {p : String → Prop}
variable {R : World → World → Prop}

theorem admits_batch (p : String → Prop) [hR : Admits p R] (hpublish : ∀ d, Within R (y.publish d))
    (hnames : ∀ items, y.sourceOf svc = .ok items → ∀ r, .ok r ∈ items → p r.name)
    (hvisit : ∀ visited : Service, visited.id = svc.id →
      Within R (store "updating external service" .putService (Store.putService visited))) :
    Within R (y.batch svc least) := by
  have hreading : Within R (y.reading svc) := asks_reading fun items hitems r hr =>
    admits_insertIfNew (p := p) hpublish (hnames items hitems r hr)
  rw [batch_eq]
  refine Within.bindOf hreading (fun _ _ _ h => reading_ok h) ?_
  rintro listing ⟨items, hitems, rfl⟩
  refine Within.bindOf (P := fun r => judge svc (.ofItems items) = .ok r) (within_ofExcept _)
    (fun _ _ _ h => (ofExcept_ok h).1) ?_
  rintro ⟨sourced, failure⟩ hjudged
  refine Within.bind (asks_allowsPrivate y svc) fun allowed => ?_
  refine Within.bind (hR.transaction _ (admits_applyBatch y svc (p := p) ?_ least hvisit))
    fun diff => Within.bind (hpublish diff) fun _ => ?_
  · intro r hr
    exact hnames items hitems r (ok_of_judge hjudged r (mem_of_allowed hr))
  · split
    · exact Within.throw _
    · exact Within.pure _

theorem admits_stream (p : String → Prop) [hR : Admits p R] (hpublish : ∀ d, Within R (y.publish d))
    (hnames : ∀ items, y.sourceOf svc = .ok items → ∀ r, .ok r ∈ items → p r.name)
    (hvisit : ∀ visited : Service, visited.id = svc.id →
      Within R (store "updating external service" .putService (Store.putService visited))) :
    Within R (y.stream svc least) := by
  unfold stream
  refine Within.bind (asks_allowsPrivate y svc) fun allowed => ?_
  refine Within.bindOf (asks_itemsOf y svc) (fun _ _ _ h => (itemsOf_ok h).1) fun items hitems => ?_
  refine Within.bind (within_readStream (fun r hr => admits_sync (p := p) hpublish
    (hnames items hitems r hr)) allowed) fun s => ?_
  exact Within.bind (admits_sweepUnseen p hpublish s.seen) fun lost =>
    Within.bind (within_recordVisit y svc _ hvisit) fun _ => within_ofExcept _

theorem wrote_publish (y : Syncer) (d : Diff) : Within (Wrote p) (y.publish d) :=
  fun w => .of_store (still_publish y d w)

theorem wrote_insertIfNew (y : Syncer) (svc : Service) (r : Repo) :
    Within (Wrote fun _ => True) (y.insertIfNew svc r) :=
  admits_insertIfNew (p := fun _ => True) (wrote_publish y) trivial

theorem wrote_reading (y : Syncer) (svc : Service) :
    Within (Wrote fun _ => True) (y.reading svc) :=
  asks_reading fun _ _ r _ => wrote_insertIfNew y svc r

/-- Whatever is asked of a syncer, all that is written bears names that are brought up. -/
theorem wrote_perform {task : Task} {w : World} (hw : w.store.catalog.Furnished)
    (hbrings : y.Brings (fun _ r => p r.name) w task) : Wrote p w (y.perform task w).2 := by
  cases task with
  | visit service least =>
      rcases visit_cases hw y service least with hsame | ⟨svc, v, hsame, hsvc, hid, hend⟩
      · exact .of_store hsame
      · have hvisit : ∀ visited : Service, visited.id = svc.id → Within (Wrote p)
            (store "updating external service" .putService (Store.putService visited)) :=
          fun visited hown => on_store (Store.wrote_putService
            (hown ▸ Int.ne_of_gt (hsvc.range hw).1))
        have hnames := hbrings svc hsvc hid
        rw [hend]
        refine Chained.trans (R := Wrote p) (.of_store hsame) ?_
        split
        · exact admits_stream p (wrote_publish y) hnames hvisit v
        · exact admits_batch p (wrote_publish y) hnames hvisit v
  | sync svc repo =>
      rw [snd_perform_sync]
      exact admits_sync (wrote_publish y) hbrings w
  | syncRepo repo =>
      rcases syncRepo_cases y repo w with ⟨e, v, -, hsame, hend⟩ | ⟨svc, v, hrun, hsame, hend⟩
      · rw [hend]
        exact .of_store hsame
      · rw [hend]
        exact Chained.trans (R := Wrote p) (.of_store hsame)
          (admits_sync (wrote_publish y) (hbrings svc v hrun) v)

end Syncer

namespace Catalog

/-- Every name in the catalog was brought up by some pass. -/
theorem Reachable.named {p : String → Prop} {c : Catalog}
    (h : Reachable (fun _ r => p r.name) c) : c.Named p := by
  have hempty : ∀ {d : Catalog}, d.repos = .empty → ∀ j row, d.repos.get? j ≠ some row := by
    intro d hrepos j row hrow
    rw [hrepos, Table.get?_empty] at hrow
    cases hrow
  induction h with
  | start hrepos _ hfurnished =>
      refine ⟨⟨hfurnished, ?_, fun j row hrow => ?_⟩, fun j row hrow => ?_⟩
      · rw [hrepos]
        exact Int.le_refl 0
      · exact absurd hrow (hempty hrepos j row)
      · exact absurd hrow (hempty hrepos j row)
  | elsewhere _ hrepos _ hfurnished ih =>
      exact ⟨⟨hfurnished, hrepos ▸ ih.lastId, hrepos ▸ ih.ids⟩, hrepos ▸ ih.names⟩
  | pass y task _ hbrings ih =>
      exact named_of_writes (Syncer.wrote_perform ih.furnished hbrings).catalog ih

theorem Reachable.rooted {p : Service → Repo → Prop} {c : Catalog} (h : Reachable p c) :
    c.Rooted :=
  (Reachable.named (p := fun _ => True) (h.mono fun _ _ _ => trivial)).toRooted

end Catalog

end RepoCatalog
