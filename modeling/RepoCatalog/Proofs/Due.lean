import RepoCatalog.Proofs.FirstJob
import RepoCatalog.Proofs.Moves

/-!
# Services that are due

A round of the scheduler queues one job for each service that is due and has none in flight. When a
service is due is decided by the text of the time at which it is to be visited next, and the text of
a time after the year 9999 starts with a sign and so comes before all others: such a service is due
in every round.
-/
namespace RepoCatalog

open Time (Instant)

namespace StoredTime

variable {now t : Instant}

/-- The texts of the times tell wrongly whether the second one has come at the first. -/
def IsMisread (now t : Instant) : Prop :=
  ¬(before now t = false ↔ t ≤ now)

theorem lt_of_late (hnow : isPlain now = true) (ht : 9999 < t.year) : now < t := by
  have hearly := (Instant.year_lt_iff 25 now).mp (Int.lt_add_one_of_le (isPlain_iff.mp hnow).2)
  have hlate := (Instant.year_lt_iff 25 t).not.mp (by omega)
  exact Int.lt_of_lt_of_le hearly (Int.not_lt.mp hlate)

theorem lt_of_early (ht : t.year < 0) (hnow : isPlain now = true) : t < now := by
  have hearly := (Instant.year_lt_iff 0 t).mp ht
  have hlate := (Instant.year_lt_iff 0 now).not.mp (Int.not_lt.mpr (isPlain_iff.mp hnow).1)
  exact Int.lt_of_lt_of_le hearly (Int.not_lt.mp hlate)

theorem isMisread_iff (hnow : isPlain now = true) : IsMisread now t ↔ 9999 < t.year := by
  unfold IsMisread
  cases ht : isPlain t with
  | true =>
      have hread : before now t = false ↔ t ≤ now := by
        rw [← Bool.not_eq_true, before_of_plain hnow ht]
        exact Int.not_lt
      have hyear := (isPlain_iff.mp ht).2
      simp [hread, hyear]
  | false =>
      have htext : before now t = false := by
        rw [← Bool.not_eq_true, before_of_signed (.inr ht)]
        exact lt_asymm (text_lt_text ht hnow)
      have hyear : t.year < 0 ∨ 9999 < t.year := by
        have hsigned := isPlain_iff.not.mp (Bool.eq_false_iff.mp ht)
        omega
      simp only [htext, true_iff]
      constructor
      · intro hlate
        apply hyear.resolve_left
        intro hneg
        exact hlate (Int.le_of_lt (lt_of_early hneg hnow))
      · intro hafter
        exact Int.not_le.mpr (lt_of_late hnow hafter)

end StoredTime

namespace Queue

open Store Catalog

variable {s : Store} {c d : Catalog} {now : Instant} {isCloud : Bool} {id : Int} {row : ServiceRow}

theorem get?_addFresh_of_lt {jobs : Table JobRow} (services : List Int) (h : id < jobs.nextId) :
    (addFresh now services jobs).get? id = jobs.get? id := by
  induction services generalizing jobs with
  | nil => rfl
  | cons service services ih =>
      have hnext : id < (jobs.append (.fresh service now)).nextId :=
        Int.lt_add_one_of_le (Int.le_of_lt h)
      refine (ih hnext).trans ?_
      rw [Table.get?_append, if_neg (Int.ne_of_lt h)]

theorem get?_addFresh (jobs : Table JobRow) (services : List Int) (i : Nat) :
    (addFresh now services jobs).get? (jobs.nextId + i) =
      services[i]?.map fun id => .fresh id now := by
  induction services generalizing jobs i with
  | nil =>
      have hnew : jobs.lastId < jobs.nextId + i := by
        unfold Table.nextId
        omega
      exact Table.get?_of_lastId_lt hnew
  | cons service services ih =>
      let jobs' := jobs.append (.fresh service now)
      have hnext : jobs'.nextId = jobs.nextId + 1 := rfl
      cases i with
      | zero =>
          have hlt : jobs.nextId < jobs'.nextId := Int.lt_succ _
          refine (get?_addFresh_of_lt services (by simpa using hlt)).trans ?_
          simp [Table.get?_append]
      | succ i =>
          have hsame : jobs.nextId + ((i + 1 : Nat) : Int) = jobs'.nextId + i := by
            rw [hnext]
            omega
          rw [hsame]
          exact ih jobs' i

/-- A fresh job is queued for each of these services in turn, under the ids that come after all
others, and nothing else happens. -/
structure Queued (now : Instant) (services : List Int) (c d : Catalog) : Prop where
  others : d.toTables = { c.toTables with jobs := d.jobs }
  kept : ∀ id < c.jobs.nextId, d.jobs.get? id = c.jobs.get? id
  added : ∀ i : Nat, d.jobs.get? (c.jobs.nextId + i) = services[i]?.map fun id => .fresh id now

theorem queued_of_addFresh {services : List Int}
    (h : d.toTables = { c.toTables with jobs := addFresh now services c.jobs }) :
    Queued now services c d := by
  refine ⟨?_, fun id hid => ?_, fun i => ?_⟩
  · rw [h]
  · rw [h]
    exact get?_addFresh_of_lt services hid
  · rw [h]
    exact get?_addFresh c.jobs services i

theorem Queued.unique {services services' : List Int} (h : Queued now services c d)
    (h' : Queued now services' c d) : services = services' := by
  apply List.ext_getElem?
  intro i
  have hsame := (h.added i).symm.trans (h'.added i)
  refine Option.map_injective (fun a b hab => ?_) hsame
  exact congrArg JobRow.service hab

/-- A service that is due as soon as its time has come: it is not deleted and has no job in flight,
and in the cloud a user owns it or it is a default. -/
structure IsEligible (c : Catalog) (isCloud : Bool) (id : Int) (row : ServiceRow) : Prop where
  stored : c.services.get? id = some row
  live : row.deletedAt = none
  idle : ¬∃ j, c.InFlight id j
  served : isCloud = true →
    (∃ user, row.namespaceUserId = some user ∧ 0 < user) ∨ row.cloudDefault = true

/-- A service that is due by the order of time. -/
def IsDueBy (c : Catalog) (isCloud : Bool) (now : Instant) (id : Int) : Prop :=
  ∃ row, IsEligible c isCloud id row ∧ ∀ t ∈ row.nextSyncAt, t ≤ now

theorem isSome_owner?_iff : row.owner?.isSome = true ↔
    ∃ user, row.namespaceUserId = some user ∧ 0 < user := by
  unfold ServiceRow.owner?
  cases row.namespaceUserId with
  | none => simp
  | some user => simp [Option.isSome_filter]

theorem mem_dueServices_iff : id ∈ dueServices c isCloud now ↔
    ∃ row, IsEligible c isCloud id row ∧ ∀ t ∈ row.nextSyncAt, StoredTime.before now t = false := by
  rw [mem_dueServices]
  constructor
  · rintro ⟨row, hrow, hdue⟩
    obtain ⟨hlive, htime, hidle, hserved⟩ := isDue_iff.mp hdue
    exact ⟨row, ⟨hrow, hlive, hidle, fun hcloud => (hserved hcloud).imp_left isSome_owner?_iff.mp⟩,
      htime⟩
  · rintro ⟨row, h, htime⟩
    exact ⟨row, h.stored, isDue_iff.mpr ⟨h.live, htime, h.idle,
      fun hcloud => (h.served hcloud).imp_left isSome_owner?_iff.mpr⟩⟩

/-- The queue's reading of who is due agrees with the time, if and only if it misreads no time that
matters. -/
theorem dueServices_agree_iff :
    (∀ id, id ∈ dueServices c isCloud now ↔ IsDueBy c isCloud now id) ↔
      ∀ id row, IsEligible c isCloud id row → ∀ t ∈ row.nextSyncAt,
        ¬StoredTime.IsMisread now t := by
  unfold IsDueBy
  simp only [mem_dueServices_iff]
  constructor
  · intro hagree id row hrow t ht
    have hthis : ∀ {P : Instant → Prop},
        (∃ r, IsEligible c isCloud id r ∧ ∀ u ∈ r.nextSyncAt, P u) ↔ P t := by
      intro P
      constructor
      · rintro ⟨r, hr, htime⟩
        cases hrow.stored.symm.trans hr.stored
        exact htime t ht
      · intro htime
        refine ⟨row, hrow, fun u hu => ?_⟩
        cases Option.some.inj (ht.symm.trans hu)
        exact htime
    exact not_not.mpr (hthis.symm.trans ((hagree id).trans hthis))
  · intro hread id
    refine exists_congr fun row => and_congr_right fun hrow => ?_
    exact forall_congr' fun t => forall_congr' fun ht => not_not.mp (hread id row hrow t ht)

/-- One fresh job is queued for each service that is due, and nothing else happens, if and only if
the time of no eligible service is misread; and by a plain clock that happens to the times after the
year 9999 only. -/
theorem enqueueDue_exact_iff (hs : s.catalog.Complete) (isCloud : Bool) :
    ∃ n d, enqueueDue isCloud s = (.ok n, { s.tick with catalog := d }) ∧
      ((∃ services : List Int, services.Nodup ∧ services.length = n ∧
          (∀ id, id ∈ services ↔ IsDueBy s.catalog isCloud s.clock id) ∧
          Queued s.clock services s.catalog d) ↔
        ∀ id row, IsEligible s.catalog isCloud id row →
          ∀ t ∈ row.nextSyncAt, ¬StoredTime.IsMisread s.clock t) ∧
      (StoredTime.isPlain s.clock = true →
        ∀ t, StoredTime.IsMisread s.clock t ↔ 9999 < t.year) := by
  obtain ⟨d, hrun, htables, -⟩ := run_enqueueDue hs isCloud
  have hqueued := queued_of_addFresh htables
  refine ⟨_, d, hrun, ?_, fun hplain t => StoredTime.isMisread_iff hplain⟩
  rw [← dueServices_agree_iff]
  constructor
  · rintro ⟨services, -, -, hdue, hqueued'⟩
    cases hqueued.unique hqueued'
    exact hdue
  · intro hdue
    exact ⟨_, nodup_dueServices _ _ _, rfl, hdue, hqueued⟩

/-- A service that was never visited is queued in the first round. -/
theorem enqueueDue_exact_iff_first :
    Sample.idle.catalog.Complete ∧ ∃ services d,
      enqueueDue false Sample.idle = (.ok 1, { Sample.idle.tick with catalog := d }) ∧
      services.length = 1 ∧
      (∀ id, id ∈ services ↔ IsDueBy Sample.idle.catalog false Sample.idle.clock id) ∧
      Queued Sample.idle.clock services Sample.idle.catalog d := by
  have hnever : ∀ e ∈ Sample.idle.catalog.services.toList, e.2.nextSyncAt = none := by
    decide +kernel
  have hread : ∀ id row, IsEligible Sample.idle.catalog false id row →
      ∀ t ∈ row.nextSyncAt, ¬StoredTime.IsMisread Sample.idle.clock t := by
    intro id row h t ht
    rw [hnever (id, row) (Table.get?_eq_some_iff.mp h.stored)] at ht
    cases ht
  have hone : (enqueueDue false Sample.idle).1 = .ok 1 := rfl
  obtain ⟨n, d, hrun, hiff, -⟩ := enqueueDue_exact_iff Sample.complete_idle false
  obtain ⟨services, -, hlength, hdue, hqueued⟩ := hiff.mpr hread
  cases (congrArg Prod.fst hrun).symm.trans hone
  exact ⟨Sample.complete_idle, services, d, hrun, hlength, hdue, hqueued⟩

/-- A store in 2001 whose only service is to be visited next in the year 11507. -/
def Sample.distant : Store :=
  let svc : Service := .fresh .gitHub "hub"
  (Store.putService { svc with nextSyncAt := some (.ofSeconds 300978307200) }
    (.fresh (.ofSeconds 978307200))).2

/-- A service that is to be visited in the far future is queued at once. -/
theorem distant_visit_misread :
    let s := Sample.distant
    s.catalog.Complete ∧ StoredTime.isPlain s.clock = true ∧
      ∃ d, enqueueDue false s = (.ok 1, { s.tick with catalog := d }) ∧
        ¬∃ services : List Int, services.Nodup ∧ services.length = 1 ∧
          (∀ id, id ∈ services ↔ IsDueBy s.catalog false s.clock id) ∧
          Queued s.clock services s.catalog d := by
  intro s
  have hcomplete : s.catalog.Complete := by
    intro t
    cases t <;> decide +kernel
  have hlater : ∀ e ∈ s.catalog.services.toList, ∃ t ∈ e.2.nextSyncAt, ¬t ≤ s.clock := by
    decide +kernel
  have hlisted : (dueServices s.catalog false s.clock).length = 1 := by decide +kernel
  obtain ⟨d, hrun, -, -⟩ := run_enqueueDue hcomplete false
  rw [hlisted] at hrun
  refine ⟨hcomplete, by decide +kernel, d, hrun, ?_⟩
  rintro ⟨services, -, hlength, hdue, -⟩
  obtain ⟨id, hid⟩ := List.exists_mem_of_length_pos (Nat.lt_of_lt_of_eq Nat.one_pos hlength.symm)
  obtain ⟨row, h, htime⟩ := (hdue id).mp hid
  obtain ⟨t, ht, hlate⟩ := hlater (id, row) (Table.get?_eq_some_iff.mp h.stored)
  exact hlate (htime t ht)

end Queue

end RepoCatalog
