import RepoCatalog.Proofs.StoreRun
import RepoCatalog.Queue

/-!
# Jobs in flight

A queue is to have at most one job in flight for each service. Two calls can put a second one beside
the first: queueing a job for a service whose job is only to be tried again, and reporting the
failure of a job that had ended before.
-/
namespace RepoCatalog

open Step
open Time (Instant)

theorem Table.map_congr {α : Type} {t : Table α} {f g : Int → α → α}
    (h : ∀ id row, t.get? id = some row → f id row = g id row) : t.map f = t.map g := by
  have hrows : t.rows.mapEntries f = t.rows.mapEntries g := by
    refine Dict.ext_get? fun id => ?_
    rw [Dict.get?_mapEntries, Dict.get?_mapEntries]
    exact Option.map_congr fun row hrow => h id row hrow
  unfold Table.map
  simp only [hrows]

theorem Table.map_map {α : Type} (t : Table α) (f g : Int → α → α) :
    (t.map f).map g = t.map fun id row => g id (f id row) := by
  have hrows : (t.rows.mapEntries f).mapEntries g =
      t.rows.mapEntries fun id row => g id (f id row) := by
    refine Dict.ext_get? fun id => ?_
    rw [Dict.get?_mapEntries, Dict.get?_mapEntries, Dict.get?_mapEntries, Option.map_map]
    rfl
  unfold Table.map
  simp only [hrows]

theorem Table.count_congr {α : Type} {t : Table α} {p q : Int → α → Bool}
    (h : ∀ id row, t.get? id = some row → p id row = q id row) : t.count p = t.count q :=
  List.countP_congr fun e he => by rw [h e.1 e.2 (Table.get?_eq_some_iff.mpr he)]

theorem Table.count_map {α : Type} (t : Table α) (f : Int → α → α) (p : Int → α → Bool) :
    (t.map f).count p = t.count fun id row => p id (f id row) :=
  List.countP_map

namespace Catalog

variable {c d e : Catalog}

def InFlight (c : Catalog) (service id : Int) : Prop :=
  ∃ row, c.jobs.get? id = some row ∧ row.service = service ∧
    row.state.satisfies JobState.isInFlight = true

/-- No service has two jobs in flight. -/
def OneInFlight (c : Catalog) : Prop :=
  ∀ service i j, c.InFlight service i → c.InFlight service j → i = j

/-- The service has a job that waits to be claimed or is being processed. -/
def Busy (c : Catalog) (service : Int) : Prop :=
  ∃ id row, c.jobs.get? id = some row ∧ row.service = service ∧
    (row.state = .known .queued ∨ row.state = .known .processing)

theorem inFlight_iff_mem {service id : Int} : c.InFlight service id ↔
    ∃ row, (id, row) ∈ c.jobs.toList ∧ row.service = service ∧
      row.state.satisfies JobState.isInFlight = true := by
  simp only [InFlight, Table.get?_eq_some_iff]

theorem busy_iff_mem {service : Int} : c.Busy service ↔
    ∃ e ∈ c.jobs.toList, e.2.service = service ∧
      (e.2.state = .known .queued ∨ e.2.state = .known .processing) := by
  simp only [Busy, Table.get?_eq_some_iff, Prod.exists]

instance (c : Catalog) (service : Int) : Decidable (∃ id, c.InFlight service id) :=
  decidable_of_iff (∃ e ∈ c.jobs.toList, e.2.service = service ∧
    e.2.state.satisfies JobState.isInFlight = true) (by
      simp only [inFlight_iff_mem, Prod.exists])

instance (c : Catalog) (service : Int) : Decidable (c.Busy service) :=
  decidable_of_iff _ busy_iff_mem.symm

structure Narrows (c d : Catalog) : Prop where
  version : d.version = c.version
  inFlight : ∀ service id, d.InFlight service id → c.InFlight service id

structure Lifts (c : Catalog) (service id : Int) (d : Catalog) : Prop where
  version : d.version = c.version
  fresh : ¬c.InFlight service id
  inFlight : ∀ s i, d.InFlight s i ↔ c.InFlight s i ∨ (s = service ∧ i = id)

theorem Narrows.refl (c : Catalog) : Narrows c c :=
  ⟨rfl, fun _ _ h => h⟩

theorem Narrows.trans (h : Narrows c d) (h' : Narrows d e) : Narrows c e :=
  ⟨h'.version.trans h.version,
    fun service id hid => h.inFlight service id (h'.inFlight service id hid)⟩

theorem OneInFlight.narrowed (hc : c.OneInFlight) (h : Narrows c d) : d.OneInFlight := by
  intro service i j hi hj
  exact hc service i j (h.inFlight service i hi) (h.inFlight service j hj)

/-- A job more is one too many if and only if its service had one in flight. -/
theorem Lifts.oneInFlight_iff {service id : Int} (h : Lifts c service id d) (hc : c.OneInFlight) :
    d.OneInFlight ↔ ¬∃ j, c.InFlight service j := by
  constructor
  · rintro hd ⟨j, hj⟩
    have hid := (h.inFlight service id).mpr (.inr ⟨rfl, rfl⟩)
    have hsame := hd service j id ((h.inFlight service j).mpr (.inl hj)) hid
    exact h.fresh (hsame ▸ hj)
  · intro hnone s i j hi hj
    rcases (h.inFlight s i).mp hi with hi | ⟨rfl, rfl⟩
    · rcases (h.inFlight s j).mp hj with hj | ⟨rfl, rfl⟩
      · exact hc s i j hi hj
      · exact absurd ⟨i, hi⟩ hnone
    · rcases (h.inFlight s j).mp hj with hj | ⟨-, rfl⟩
      · exact absurd ⟨j, hj⟩ hnone
      · rfl

theorem get?_changedJobs (c : Catalog) (p : Int → JobRow → Bool) (f : JobRow → JobRow) (id : Int) :
    (c.changeJobs p f).2.jobs.get? id =
      (c.jobs.get? id).map fun row =>
        if p id row then { f row with service := row.service } else row :=
  Table.get?_map _ _ _

theorem changeJobs_congr {p q : Int → JobRow → Bool} (f : JobRow → JobRow)
    (h : ∀ id row, c.jobs.get? id = some row → p id row = q id row) :
    c.changeJobs p f = c.changeJobs q f := by
  have hcount : c.jobs.count p = c.jobs.count q := Table.count_congr h
  have hjobs : c.changedJobs p f = c.changedJobs q f := by
    refine Table.map_congr fun id row hrow => ?_
    rw [h id row hrow]
  unfold changeJobs
  simp only [hcount, hjobs]

theorem changeJob_ok {id : Int} {row : JobRow} (hrow : c.jobs.get? id = some row)
    (f : JobRow → JobRow) :
    c.changeJob id f = .ok ((), (c.changeJobs (fun k _ => k == id) f).2) := by
  unfold changeJob
  exact if_pos (Option.isSome_iff_exists.mpr ⟨row, hrow⟩)

theorem narrows_changeJobs {p : Int → JobRow → Bool} {f : JobRow → JobRow}
    (h : ∀ id row, c.jobs.get? id = some row → p id row = true →
      (f row).state.satisfies JobState.isInFlight = true →
        row.state.satisfies JobState.isInFlight = true) :
    Narrows c (c.changeJobs p f).2 := by
  refine ⟨rfl, ?_⟩
  rintro service id ⟨row, hrow, hservice, hflight⟩
  rw [get?_changedJobs, Option.map_eq_some_iff] at hrow
  obtain ⟨old, hold, rfl⟩ := hrow
  by_cases hp : p id old = true
  · rw [if_pos hp] at hservice hflight
    exact ⟨old, hold, hservice, h id old hold hp hflight⟩
  · rw [if_neg hp] at hservice hflight
    exact ⟨old, hold, hservice, hflight⟩

theorem narrows_changeJob {id : Int} {row : JobRow} (hrow : c.jobs.get? id = some row)
    {f : JobRow → JobRow} (h : (f row).state.satisfies JobState.isInFlight = true →
      row.state.satisfies JobState.isInFlight = true) :
    Narrows c (c.changeJobs (fun k _ => k == id) f).2 := by
  refine narrows_changeJobs fun k old hold hk hflight => ?_
  rw [beq_iff_eq] at hk
  rw [hk, hrow] at hold
  cases hold
  exact h hflight

theorem lifts_changeJob {id : Int} {row : JobRow} (hrow : c.jobs.get? id = some row)
    (hended : row.state.satisfies JobState.isInFlight = false) {f : JobRow → JobRow}
    (h : (f row).state.satisfies JobState.isInFlight = true) :
    Lifts c row.service id (c.changeJobs (fun k _ => k == id) f).2 := by
  refine ⟨rfl, ?_, fun s i => ?_⟩
  · rintro ⟨old, hold, -, hflight⟩
    rw [hrow] at hold
    cases hold
    rw [hended] at hflight
    cases hflight
  · unfold InFlight
    simp only [get?_changedJobs, beq_iff_eq]
    by_cases hi : i = id
    · subst hi
      rw [hrow, Option.map_some, if_pos rfl]
      constructor
      · rintro ⟨new, hnew, hservice, -⟩
        cases hnew
        exact .inr ⟨hservice.symm, rfl⟩
      · rintro (⟨old, hold, -, hflight⟩ | ⟨hs, -⟩)
        · cases hold
          rw [hended] at hflight
          cases hflight
        · exact ⟨_, rfl, hs.symm, h⟩
    · simp only [hi, if_false, Option.map_id']
      constructor
      · exact .inl
      · rintro (h | ⟨-, h⟩)
        · exact h
        · cases h

theorem narrows_dropJobs (c : Catalog) (p : Int → JobRow → Bool) : Narrows c (c.dropJobs p).2 := by
  refine ⟨rfl, ?_⟩
  rintro service id ⟨row, hrow, hservice, hflight⟩
  have hmem := Table.mem_filter.mp (Table.get?_eq_some_iff.mp hrow)
  exact ⟨row, Table.get?_eq_some_iff.mpr hmem.1, hservice, hflight⟩

theorem addJob_total {service : Int} (h : c.services.contains service = true) (now : Instant) :
    ∃ d, c.addJob (.fresh service now) = .ok (c.jobs.nextId, d) ∧
      Lifts c service c.jobs.nextId d ∧
        d.toTables = { c.toTables with jobs := c.jobs.append (.fresh service now) } := by
  unfold addJob
  refine ⟨_, dif_pos h, ⟨rfl, ?_, ?_⟩, rfl⟩
  · rintro ⟨row, hrow, -⟩
    rw [Table.get?_nextId] at hrow
    cases hrow
  · intro s i
    unfold InFlight
    simp only [Table.get?_append]
    by_cases hi : i = c.jobs.nextId
    · subst hi
      rw [if_pos rfl, Table.get?_nextId]
      constructor
      · rintro ⟨row, hrow, hservice, -⟩
        cases hrow
        exact .inr ⟨hservice.symm, rfl⟩
      · rintro (⟨row, hrow, -⟩ | ⟨hs, -⟩)
        · cases hrow
        · exact ⟨_, rfl, hs.symm, rfl⟩
    · rw [if_neg hi]
      constructor
      · exact .inl
      · rintro (h | ⟨-, h⟩)
        · exact h
        · exact absurd h hi

theorem service_of_inFlight {service id : Int} (h : c.InFlight service id) :
    c.services.contains service = true := by
  obtain ⟨row, hrow, rfl, -⟩ := h
  exact c.sound.jobServices _ (Table.get?_eq_some_iff.mp hrow)

end Catalog

namespace Queue

open Store Catalog

variable {α : Type} {s : Store}

theorem run_atomically (body : StoreM α) (s : Store) : atomically body s =
    match body { s with saved := s.catalog :: s.saved } with
      | (.ok a, t) => (.ok a, { t with saved := t.saved.tail })
      | (.error e, t) => (.error e, t.undo) := by
  unfold atomically
  refine (bind_of_ok (t := { s with saved := s.catalog :: s.saved }) (a := ()) rfl).trans ?_
  rw [run_tryCatch, run_bind]
  cases body { s with saved := s.catalog :: s.saved } with
  | mk r t =>
      cases r with
      | ok a => rfl
      | error e => rfl

theorem run_changeJobs (hs : s.catalog.Complete) (p : Int → JobRow → Bool) (f : JobRow → JobRow) :
    Queue.changeJobs p f s =
      (.ok (s.catalog.jobs.count p), { s with catalog := (s.catalog.changeJobs p f).2 }) :=
  run_write_of_ok hs rfl

/-- Nothing comes to be in flight in the catalog of a store. -/
def Narrowing (s t : Store) : Prop :=
  Narrows s.catalog t.catalog

instance : Chained Narrowing where
  refl s := .refl s.catalog
  trans h h' := h.trans h'

theorem within_now : Within Narrowing now :=
  fun s => .refl s.catalog

theorem within_write {tables : List TableName} {f : Catalog → Catalog.Change α}
    (h : ∀ c a d, f c = .ok (a, d) → Narrows c d) : Within Narrowing (write tables f) := by
  have hrequire : Within Narrowing (require tables .refusedWrite) := by
    refine Within.bind Within.get fun s => ?_
    simp only []
    split
    · exact Within.throw _
    · exact Within.pure _
  refine Within.bind hrequire fun _ s => ?_
  rw [bind_of_ok (run_get s)]
  cases hf : f s.catalog with
  | error e => exact .refl s.catalog
  | ok r => exact h s.catalog r.1 r.2 hf

theorem within_changeJobs {p : Int → JobRow → Bool} {f : JobRow → JobRow}
    (h : ∀ id row, p id row = true → (f row).state.satisfies JobState.isInFlight = true →
      row.state.satisfies JobState.isInFlight = true) :
    Within Narrowing (Queue.changeJobs p f) := by
  refine within_write fun c n d hd => ?_
  cases hd
  exact narrows_changeJobs fun id row _ => h id row

theorem within_heartbeat (id : Int) : Within Narrowing (heartbeat id) :=
  Within.bind within_now fun _ =>
    Within.bind (within_changeJobs fun _ _ _ h => h) fun _ => Within.pure _

theorem within_complete (id : Int) : Within Narrowing (complete id) := by
  refine Within.bind within_now fun now => Within.bind (within_changeJobs fun k row _ h => ?_)
    fun _ => Within.pure _
  cases h

theorem within_purge (cutoff : Instant) : Within Narrowing (purge cutoff) := by
  refine within_write fun c n d hd => ?_
  cases hd
  exact narrows_dropJobs c _

theorem inFlight_of_stalled {row : JobRow} {cutoff : Instant} (h : row.isStalled cutoff = true) :
    row.state.satisfies JobState.isInFlight = true := by
  unfold JobRow.isStalled at h
  rw [Bool.and_eq_true, beq_iff_eq] at h
  rw [h.1]
  rfl

theorem within_resetStalled (now cutoff : Instant) (most : Nat) :
    Within Narrowing (resetStalled now cutoff most) := by
  refine Within.bind (within_changeJobs fun id row _ h => ?_) fun failed =>
    Within.bind (within_changeJobs fun id row hp _ => ?_) fun reset => Within.pure _
  · cases h
  · rw [Bool.and_eq_true] at hp
    exact inFlight_of_stalled hp.1

theorem mem_of_foldl_pick {f : Option α → α → Option α}
    (hf : ∀ best a, f best a = best ∨ f best a = some a) {as : List α} {best : Option α} {a : α}
    (h : as.foldl f best = some a) : a ∈ as ∨ best = some a := by
  induction as generalizing best with
  | nil => exact .inr h
  | cons x as ih =>
      rcases ih h with hmem | hbest
      · exact .inl (List.mem_cons_of_mem x hmem)
      · rcases hf best x with hkept | htaken
        · exact .inr (hkept.symm.trans hbest)
        · cases htaken.symm.trans hbest
          exact .inl List.mem_cons_self

theorem mem_of_next? {c : Catalog} {now : Instant} {e : Int × JobRow} (h : next? c now = some e) :
    e ∈ c.jobs.toList ∧ e.2.isReady now = true := by
  unfold next? at h
  refine (mem_of_foldl_pick (fun best x => ?_) h).elim List.mem_filter.mp fun hnone => ?_
  · cases best with
    | none => exact .inr rfl
    | some b =>
        simp only []
        split
        · exact .inr rfl
        · exact .inl rfl
  · cases hnone

theorem inFlight_of_ready {row : JobRow} {now : Instant} (h : row.isReady now = true) :
    row.state.satisfies JobState.isInFlight = true := by
  unfold JobRow.isReady at h
  rw [Bool.and_eq_true] at h
  cases hstate : row.state with
  | unknown text =>
      rw [hstate] at h
      cases h.1
  | known state =>
      rw [hstate] at h
      cases state with
      | queued => rfl
      | processing => rfl
      | errored => rfl
      | completed => cases h.1
      | failed => cases h.1

theorem toJob?_ok (id : Int) {row : JobRow}
    (h : row.state.satisfies JobState.isInFlight = true) :
    ∃ job, row.toJob? id = .ok job ∧ job.id = id ∧ job.service = row.service := by
  unfold JobRow.toJob?
  cases hstate : row.state with
  | unknown text =>
      rw [hstate] at h
      cases h
  | known state => exact ⟨_, rfl, rfl, rfl⟩

theorem run_look (hs : s.catalog.Complete) :
    look s = (.ok (s.clock, next? s.catalog s.clock), s.tick) := by
  unfold look
  rw [bind_of_ok (run_now s), bind_of_ok (run_read (by exact hs) _ _)]
  rfl

theorem run_claim (hs : s.catalog.Complete) (now : Instant) (id : Int) (seen : JobRow) :
    claim now id seen s =
      (.ok (s.catalog.jobs.count (fun k row => k == id && row.state == seen.state) != 0),
        { s with catalog := (s.catalog.changeJobs (fun k row => k == id && row.state == seen.state)
          (claimedRow now)).2 }) := by
  unfold claim
  rw [bind_of_ok (run_changeJobs hs _ _)]
  rfl

theorem claim_of_seen (hs : s.catalog.Complete) (now : Instant) {id : Int} {seen : JobRow}
    (hseen : s.catalog.jobs.get? id = some seen) :
    claim now id seen s = (.ok true, { s with
      catalog := (s.catalog.changeJobs (fun k _ => k == id) (claimedRow now)).2 }) := by
  have hsame : s.catalog.changeJobs (fun k row => k == id && row.state == seen.state)
      (claimedRow now) = s.catalog.changeJobs (fun k _ => k == id) (claimedRow now) := by
    refine changeJobs_congr _ fun k row hrow => ?_
    by_cases hk : k = id
    · subst hk
      cases hseen.symm.trans hrow
      simp
    · simp [hk]
  have hone : s.catalog.jobs.count (fun k row => k == id && row.state == seen.state) ≠ 0 := by
    refine Nat.ne_of_gt (List.countP_pos_iff.mpr ⟨(id, seen), Table.get?_eq_some_iff.mp hseen, ?_⟩)
    simp
  have hwon : (s.catalog.jobs.count (fun k row => k == id && row.state == seen.state) != 0) = true :=
    bne_iff_ne.mpr hone
  rw [run_claim hs, hsame, hwon]

theorem run_handOut (hs : s.catalog.Complete) (now : Instant) {id : Int} {seen : JobRow} {job : Job}
    (hjob : seen.toJob? id = .ok job) : handOut now id seen s = (.ok { job with
      state := .processing
      startedAt := some now
      nextSyncAt := (s.catalog.services.get? job.service).bind (·.nextSyncAt) }, s) := by
  have hrun : jobOfRow id seen s = (.ok job, s) := by
    unfold jobOfRow
    rw [hjob]
    rfl
  unfold handOut
  rw [bind_of_ok hrun, bind_of_ok (run_read hs _ _)]
  rfl

theorem dequeue_of_none (hs : s.catalog.Complete) (hnext : next? s.catalog s.clock = none) :
    dequeue s = (.ok none, s.tick) := by
  unfold dequeue maxClaimAttempts dequeueWithin
  rw [bind_of_ok (run_look hs), hnext]
  rfl

theorem dequeue_of_next (hs : s.catalog.Complete) {id : Int} {row : JobRow} {job : Job}
    (hnext : next? s.catalog s.clock = some (id, row)) (hjob : row.toJob? id = .ok job) :
    dequeue s = (.ok (some { job with
        state := .processing
        startedAt := some s.clock
        nextSyncAt := (s.catalog.services.get? job.service).bind (·.nextSyncAt) }),
      { s.tick with
        catalog := (s.catalog.changeJobs (fun k _ => k == id) (claimedRow s.clock)).2 }) := by
  have hrow := Table.get?_eq_some_iff.mpr (mem_of_next? hnext).1
  let claimed : Store := { s.tick with
    catalog := (s.catalog.changeJobs (fun k _ => k == id) (claimedRow s.clock)).2 }
  have hclaim : claim s.clock id row s.tick = (.ok true, claimed) :=
    claim_of_seen (by exact hs) s.clock hrow
  have hcomplete : claimed.catalog.Complete := hs.of_version rfl
  unfold dequeue maxClaimAttempts dequeueWithin
  rw [bind_of_ok (run_look hs), hnext]
  simp only []
  rw [bind_of_ok hclaim, if_pos rfl, bind_of_ok (run_handOut hcomplete s.clock hjob)]
  rfl

/-- A worker that asks for a job gets none, or one that is ready and now is claimed. -/
theorem dequeue_cases (hs : s.catalog.Complete) :
    dequeue s = (.ok none, s.tick) ∨
      ∃ row job, s.catalog.jobs.get? job.id = some row ∧ row.isReady s.clock = true ∧
        dequeue s = (.ok (some job), { s.tick with
          catalog := (s.catalog.changeJobs (fun k _ => k == job.id) (claimedRow s.clock)).2 }) := by
  cases hnext : next? s.catalog s.clock with
  | none => exact .inl (dequeue_of_none hs hnext)
  | some e =>
      obtain ⟨id, row⟩ := e
      obtain ⟨hmem, hready⟩ := mem_of_next? hnext
      obtain ⟨job, hjob, hid, -⟩ := toJob?_ok id (inFlight_of_ready hready)
      subst hid
      let answer : Job := { job with
        state := .processing
        startedAt := some s.clock
        nextSyncAt := (s.catalog.services.get? job.service).bind (·.nextSyncAt) }
      exact .inr ⟨row, answer, Table.get?_eq_some_iff.mpr hmem, hready,
        dequeue_of_next hs hnext hjob⟩

theorem narrows_dequeue (hs : s.catalog.Complete) : Narrows s.catalog (dequeue s).2.catalog := by
  rcases dequeue_cases hs with hnone | ⟨row, job, hrow, hready, hsome⟩
  · rw [hnone]
    exact .refl _
  · rw [hsome]
    exact narrows_changeJob hrow fun _ => inFlight_of_ready hready

/-- Jobs with a fresh one for each of these services at the end. -/
def addFresh (now : Instant) (services : List Int) (jobs : Table JobRow) : Table JobRow :=
  services.foldl (fun t id => t.append (.fresh id now)) jobs

theorem forM_addJob {ids : List Int} (hs : s.catalog.Complete) (hids : ids.Nodup)
    (hservices : ∀ id ∈ ids, s.catalog.services.contains id = true)
    (hfree : ∀ id ∈ ids, ¬∃ j, s.catalog.InFlight id j) (now : Instant) :
    ∃ d : Catalog, (ids.forM fun id => do
        let _ ← write [.jobs] fun c => c.addJob (.fresh id now)) s =
          (.ok (), { s with catalog := d }) ∧
      d.toTables = { s.catalog.toTables with jobs := addFresh now ids s.catalog.jobs } ∧
        (s.catalog.OneInFlight → d.OneInFlight) := by
  induction ids generalizing s with
  | nil => exact ⟨s.catalog, rfl, rfl, fun h => h⟩
  | cons id ids ih =>
      obtain ⟨hnot, hrest⟩ := List.nodup_cons.mp hids
      obtain ⟨d, hadd, hlifts, htables⟩ := addJob_total (hservices id List.mem_cons_self) now
      have hfree' : ∀ x ∈ ids, ¬∃ j, d.InFlight x j := by
        rintro x hx ⟨j, hj⟩
        rcases (hlifts.inFlight x j).mp hj with hj | ⟨rfl, -⟩
        · exact hfree x (List.mem_cons_of_mem id hx) ⟨j, hj⟩
        · exact hnot hx
      have hservices' : ∀ x ∈ ids, d.services.contains x = true := by
        rw [htables]
        exact fun x hx => hservices x (List.mem_cons_of_mem id hx)
      obtain ⟨e, hrun, htables', hone⟩ := ih (s := { s with catalog := d })
        (hs.of_version hlifts.version) hrest hservices' hfree'
      refine ⟨e, ?_, ?_, fun h => ?_⟩
      · have hwrite : write [.jobs] (fun c => c.addJob (.fresh id now)) s =
            (.ok s.catalog.jobs.nextId, { s with catalog := d }) :=
          run_write_of_ok hs hadd
        have hstep := bind_of_ok (f := fun _ => (pure () : StoreM Unit)) hwrite
        exact (forM_of_ok (by exact hstep)).trans hrun
      · rw [htables', htables]
        rfl
      · exact hone ((hlifts.oneInFlight_iff h).mpr (hfree id List.mem_cons_self))

def dueServices (c : Catalog) (isCloud : Bool) (now : Instant) : List Int :=
  (c.services.toList.filter fun e => isDue c isCloud now e.1 e.2).map (·.1)

theorem isDue_iff {c : Catalog} {isCloud : Bool} {now : Instant} {id : Int} {row : ServiceRow} :
    isDue c isCloud now id row = true ↔ row.deletedAt = none ∧
      (∀ t ∈ row.nextSyncAt, StoredTime.before now t = false) ∧ (¬∃ j, c.InFlight id j) ∧
        (isCloud = true → row.owner?.isSome = true ∨ row.cloudDefault = true) := by
  have hflight : (c.jobs.toList.any fun e =>
      e.2.service == id && e.2.state.satisfies JobState.isInFlight) = true ↔
        ∃ j, c.InFlight id j := by
    simp [inFlight_iff_mem]
  rw [← hflight, Bool.not_eq_true]
  unfold isDue
  cases isCloud with
  | false => simp [Option.all_eq_true, and_assoc]
  | true => simp [Option.all_eq_true, and_assoc]

theorem mem_dueServices {c : Catalog} {isCloud : Bool} {now : Instant} {id : Int} :
    id ∈ dueServices c isCloud now ↔
      ∃ row, c.services.get? id = some row ∧ isDue c isCloud now id row = true := by
  simp only [dueServices, List.mem_map, List.mem_filter, Prod.exists, exists_and_right,
    exists_eq_right, Table.get?_eq_some_iff]

theorem nodup_dueServices (c : Catalog) (isCloud : Bool) (now : Instant) :
    (dueServices c isCloud now).Nodup := by
  refine List.pairwise_map.mpr ((c.services.rows.sorted.filter _).imp fun {a b} hab => ?_)
  exact Int.ne_of_lt (Std.compare_eq_lt.mp hab)

/-- A fresh job is added for every service that is due, which keeps the queue at one job for each
service. -/
theorem run_enqueueDue (hs : s.catalog.Complete) (isCloud : Bool) :
    ∃ d : Catalog, enqueueDue isCloud s =
        (.ok (dueServices s.catalog isCloud s.clock).length, { s.tick with catalog := d }) ∧
      d.toTables = { s.catalog.toTables with
        jobs := addFresh s.clock (dueServices s.catalog isCloud s.clock) s.catalog.jobs } ∧
      (s.catalog.OneInFlight → d.OneInFlight) := by
  let inside : Store := { s.tick with saved := s.catalog :: s.saved }
  have hinside : inside.catalog.Complete := hs
  let due := dueServices s.catalog isCloud s.clock
  have hservices : ∀ id ∈ due, inside.catalog.services.contains id = true := by
    intro id hid
    obtain ⟨row, hrow, -⟩ := mem_dueServices.mp hid
    exact Table.contains_iff.mpr ⟨row, Table.get?_eq_some_iff.mp hrow⟩
  have hfree : ∀ id ∈ due, ¬∃ j, inside.catalog.InFlight id j := by
    intro id hid
    obtain ⟨row, -, hdue⟩ := mem_dueServices.mp hid
    exact (isDue_iff.mp hdue).2.2.1
  obtain ⟨d, hrun, htables, hone⟩ :=
    forM_addJob hinside (nodup_dueServices _ _ _) hservices hfree s.clock
  have hread : read [.services, .jobs] (fun c => (c.services.toList.filter fun e =>
      isDue c isCloud s.clock e.1 e.2).map (·.1)) inside = (.ok due, inside) := run_read hinside _ _
  refine ⟨d, ?_, htables, hone⟩
  unfold enqueueDue
  rw [bind_of_ok (run_now s), run_atomically]
  have hsame : { s.tick with saved := s.tick.catalog :: s.tick.saved } = inside := rfl
  rw [hsame, bind_of_ok hread, bind_of_ok hrun]
  rfl

theorem enqueue_cases (hs : s.catalog.Complete) (service : Int) :
    (Narrows s.catalog (enqueue service s).2.catalog ∧
        ((∃ j, s.catalog.InFlight service j) → s.catalog.Busy service)) ∨
      ∃ id, Lifts s.catalog service id (enqueue service s).2.catalog ∧ ¬s.catalog.Busy service := by
  let inside : Store := { s with saved := s.catalog :: s.saved }
  have hinside : inside.catalog.Complete := hs
  let busy := s.catalog.jobs.toList.any fun e =>
    e.2.service == service && e.2.state.satisfies fun s => s == .queued || s == .processing
  have hbusy : busy = true ↔ s.catalog.Busy service := by
    unfold Busy
    simp only [busy, List.any_eq_true, Bool.and_eq_true, beq_iff_eq, Prod.exists,
      Table.get?_eq_some_iff]
    refine exists_congr fun id => exists_congr fun row => and_congr_right fun _ =>
      and_congr_right fun _ => ?_
    cases row.state with
    | unknown text => simp [StoredState.satisfies]
    | known state => simp [StoredState.satisfies]
  have hread : read [.jobs] (fun c => c.jobs.toList.any fun e => e.2.service == service &&
      e.2.state.satisfies fun s => s == .queued || s == .processing) inside = (.ok busy, inside) :=
    run_read hinside _ _
  unfold enqueue
  have hsame : { s with saved := s.catalog :: s.saved } = inside := rfl
  rw [run_atomically, hsame, bind_of_ok hread]
  by_cases h : busy = true
  · rw [if_pos h]
    exact .inl ⟨.refl _, fun _ => hbusy.mp h⟩
  · rw [if_neg h, bind_of_ok (run_now inside)]
    by_cases hservice : s.catalog.services.contains service = true
    · obtain ⟨d, hadd, hlifts, -⟩ := addJob_total hservice inside.clock
      have hwrite : write [.jobs] (fun c => c.addJob (.fresh service inside.clock)) inside.tick =
          (.ok s.catalog.jobs.nextId, { inside.tick with catalog := d }) :=
        run_write_of_ok (by exact hinside) hadd
      rw [bind_of_ok hwrite]
      exact .inr ⟨_, hlifts, fun hno => h (hbusy.mpr hno)⟩
    · have hrefused : s.catalog.addJob (.fresh service inside.clock) =
          .error (.refusedWrite .danglingReference) := dif_neg hservice
      have hwrite : write [.jobs] (fun c => c.addJob (.fresh service inside.clock)) inside.tick =
          (.error (.database (.refusedWrite .danglingReference)), inside.tick) :=
        run_write_of_error (by exact hinside) hrefused
      rw [bind_of_error hwrite]
      exact .inl ⟨.refl _, fun ⟨j, hj⟩ => absurd (service_of_inFlight hj) hservice⟩

/-- A failure that is reported lifts a job only if the job had ended before and is to be tried
again. -/
theorem fail_cases (hs : s.catalog.Complete) (budget : Nat) (id : Int) (message : String) :
    (Narrows s.catalog (fail budget id message s).2.catalog ∧
        ∀ row, s.catalog.jobs.get? id = some row → row.numFailures + 1 ≤ budget →
          row.state.satisfies JobState.isInFlight = true) ∨
      ∃ row, s.catalog.jobs.get? id = some row ∧ row.numFailures + 1 ≤ budget ∧
        row.state.satisfies JobState.isInFlight = false ∧
          Lifts s.catalog row.service id (fail budget id message s).2.catalog := by
  unfold fail enterFailure
  rw [bind_of_ok (run_read hs _ _)]
  cases hrow : s.catalog.jobs.get? id with
  | none =>
      refine .inl ⟨.refl _, fun row h => ?_⟩
      cases h
  | some row =>
      let state := if (budget : Int) < row.numFailures + 1 then JobState.failed else .errored
      let report (row' : JobRow) : JobRow :=
        { row' with
          state := .known state
          numFailures := row.numFailures + 1
          failureMessage := some message
          finishedAt := some s.clock }
      have hwrite : write [.jobs] (fun c => c.changeJob id report) s.tick = (.ok (),
          { s.tick with catalog := (s.catalog.changeJobs (fun k _ => k == id) report).2 }) :=
        run_write_of_ok (by exact hs) (changeJob_ok hrow report)
      simp only []
      rw [bind_of_ok (run_now s), bind_of_ok hwrite]
      by_cases hflight : row.state.satisfies JobState.isInFlight = true
      · refine .inl ⟨narrows_changeJob hrow fun _ => hflight, fun row' hrow' _ => ?_⟩
        cases hrow'
        exact hflight
      · by_cases hspent : (budget : Int) < row.numFailures + 1
        · have hfailed : (report row).state = .known .failed := by
            simp only [report, state, if_pos hspent]
          refine .inl ⟨narrows_changeJob hrow fun h => ?_, fun row' hrow' hleft => ?_⟩
          · rw [hfailed] at h
            cases h
          · cases hrow'
            exact absurd hspent (Int.not_lt.mpr hleft)
        · have herrored : (report row).state = .known .errored := by
            simp only [report, state, if_neg hspent]
          refine .inr ⟨row, rfl, Int.not_lt.mp hspent, Bool.eq_false_iff.mpr hflight,
            lifts_changeJob hrow (Bool.eq_false_iff.mpr hflight) ?_⟩
          rw [herrored]
          rfl

/-- A call of the queue. -/
inductive Call where
  | enqueueDue (isCloud : Bool)
  | enqueue (service : Int)
  | dequeue
  | heartbeat (id : Int)
  | complete (id : Int)
  | fail (budget : Nat) (id : Int) (message : String)
  | resetStalled (now cutoff : Instant) (most : Nat)
  | purge (cutoff : Instant)

namespace Call

def after (s : Store) : Call → Store
  | .enqueueDue isCloud => (Queue.enqueueDue isCloud s).2
  | .enqueue service => (Queue.enqueue service s).2
  | .dequeue => (Queue.dequeue s).2
  | .heartbeat id => (Queue.heartbeat id s).2
  | .complete id => (Queue.complete id s).2
  | .fail budget id message => (Queue.fail budget id message s).2
  | .resetStalled now cutoff most => (Queue.resetStalled now cutoff most s).2
  | .purge cutoff => (Queue.purge cutoff s).2

/-- A call that puts a second job in flight beside one that was there: a job is queued for a service
whose job is only to be tried again, or a job that had ended is to be tried again. -/
def Overbooks (c : Catalog) : Call → Prop
  | .enqueue service => (∃ j, c.InFlight service j) ∧ ¬c.Busy service
  | .fail budget id _ => ∃ row, c.jobs.get? id = some row ∧ row.numFailures + 1 ≤ budget ∧
      row.state.satisfies JobState.isInFlight = false ∧ ∃ j, c.InFlight row.service j
  | _ => False

instance (c : Catalog) (call : Call) : Decidable (call.Overbooks c) :=
  match call with
  | .enqueue service =>
      inferInstanceAs (Decidable ((∃ j, c.InFlight service j) ∧ ¬c.Busy service))
  | .fail budget id _ =>
      inferInstanceAs (Decidable (∃ row ∈ c.jobs.get? id, row.numFailures + 1 ≤ budget ∧
        row.state.satisfies JobState.isInFlight = false ∧ ∃ j, c.InFlight row.service j))
  | .enqueueDue _ | .dequeue | .heartbeat _ | .complete _ | .resetStalled _ _ _ | .purge _ =>
      isFalse id

/-- A call leaves one job in flight for each service unless it overbooks. -/
theorem oneInFlight_after_iff (hs : s.catalog.Complete) (hone : s.catalog.OneInFlight)
    (call : Call) : (call.after s).catalog.OneInFlight ↔ ¬call.Overbooks s.catalog := by
  cases call with
  | enqueueDue isCloud =>
      obtain ⟨d, hrun, -, hkept⟩ := run_enqueueDue hs isCloud
      refine iff_of_true ?_ id
      rw [after, hrun]
      exact hkept hone
  | dequeue => exact iff_of_true (hone.narrowed (narrows_dequeue hs)) id
  | heartbeat id => exact iff_of_true (hone.narrowed (within_heartbeat id s)) fun h => h
  | complete id => exact iff_of_true (hone.narrowed (within_complete id s)) fun h => h
  | resetStalled now cutoff most =>
      exact iff_of_true (hone.narrowed (within_resetStalled now cutoff most s)) id
  | purge cutoff => exact iff_of_true (hone.narrowed (within_purge cutoff s)) id
  | enqueue service =>
      rcases enqueue_cases hs service with ⟨hnarrows, hbusy⟩ | ⟨id, hlifts, hfree⟩
      · exact iff_of_true (hone.narrowed hnarrows) fun ⟨hflight, hno⟩ => hno (hbusy hflight)
      · refine (hlifts.oneInFlight_iff hone).trans (not_congr ?_)
        exact ⟨fun h => ⟨h, hfree⟩, fun h => h.1⟩
  | fail budget id message =>
      rcases fail_cases hs budget id message with
        ⟨hnarrows, hflight⟩ | ⟨row, hrow, hleft, hended, hlifts⟩
      · refine iff_of_true (hone.narrowed hnarrows) ?_
        rintro ⟨row, hrow, hleft, hended, -⟩
        rw [hflight row hrow hleft] at hended
        cases hended
      · refine (hlifts.oneInFlight_iff hone).trans (not_congr ?_)
        constructor
        · exact fun h => ⟨row, hrow, hleft, hended, h⟩
        · rintro ⟨row', hrow', -, -, h⟩
          cases hrow.symm.trans hrow'
          exact h

theorem version_after (hs : s.catalog.Complete) (call : Call) :
    (call.after s).catalog.version = s.catalog.version := by
  cases call with
  | enqueueDue isCloud =>
      obtain ⟨d, hrun, htables, -⟩ := run_enqueueDue hs isCloud
      rw [after, hrun]
      exact (congrArg Tables.version htables : d.version = _)
  | dequeue => exact (narrows_dequeue hs).version
  | heartbeat id => exact (within_heartbeat id s).version
  | complete id => exact (within_complete id s).version
  | resetStalled now cutoff most => exact (within_resetStalled now cutoff most s).version
  | purge cutoff => exact (within_purge cutoff s).version
  | enqueue service =>
      rcases enqueue_cases hs service with ⟨hnarrows, -⟩ | ⟨id, hlifts, -⟩
      · exact hnarrows.version
      · exact hlifts.version
  | fail budget id message =>
      rcases fail_cases hs budget id message with ⟨hnarrows, -⟩ | ⟨row, -, -, -, hlifts⟩
      · exact hnarrows.version
      · exact hlifts.version

end Call

/-- The calls that have led from an empty queue to a store, the last one first, each with the
catalog on which it was made. In between, anything but the jobs may change. -/
inductive History : List (Catalog × Call) → Store → Prop where
  | start {s : Store} : s.catalog.jobs.toList = [] → s.catalog.Complete → History [] s
  | elsewhere {log : List (Catalog × Call)} {s t : Store} : History log s →
      t.catalog.jobs = s.catalog.jobs → t.catalog.Complete → History log t
  | call {log : List (Catalog × Call)} {s : Store} (call : Call) : History log s →
      History ((s.catalog, call) :: log) (call.after s)

theorem History.complete {log : List (Catalog × Call)} (h : History log s) :
    s.catalog.Complete := by
  induction h with
  | start _ hs => exact hs
  | elsewhere _ _ ht _ => exact ht
  | call call _ ih => exact ih.of_version (call.version_after ih)

/-- The log and the store of calls that are made in turn. -/
def replay (s : Store) (calls : List Call) : List (Catalog × Call) × Store :=
  calls.foldl (fun h call => ((h.2.catalog, call) :: h.1, call.after h.2)) ([], s)

theorem history_replay (hempty : s.catalog.jobs.toList = []) (hs : s.catalog.Complete)
    (calls : List Call) : History (replay s calls).1 (replay s calls).2 := by
  refine List.foldlRecOn (motive := fun h : List (Catalog × Call) × Store => History h.1 h.2)
    calls _ ?_ ?_
  · exact .start hempty hs
  · exact fun _ h call _ => .call call h

/-- A store that holds one service and no job. -/
def Sample.idle : Store :=
  (Store.putService (.fresh .gitHub "hub") (.fresh ⟨0⟩)).2

theorem Sample.complete_idle : Sample.idle.catalog.Complete := by
  intro t
  cases t <;> rfl

/-- All along, no service has two jobs in flight, if and only if no call overbooks. -/
theorem oneInFlight_iff_no_overbooking {log : List (Catalog × Call)} (h : History log s) :
    (s.catalog.OneInFlight ∧ ∀ e ∈ log, e.1.OneInFlight) ↔ ∀ e ∈ log, ¬e.2.Overbooks e.1 := by
  induction h with
  | @start s hempty _ =>
      refine iff_of_true ⟨?_, fun e he => (by cases he)⟩ fun e he => (by cases he)
      rintro service i j ⟨row, hrow, -⟩
      have hmem := Table.get?_eq_some_iff.mp hrow
      rw [hempty] at hmem
      cases hmem
  | @elsewhere log s t _ hjobs _ ih =>
      rw [← ih]
      refine and_congr_left fun _ => ?_
      unfold OneInFlight InFlight
      rw [hjobs]
  | @call log s call hlog ih =>
      rw [List.forall_mem_cons, List.forall_mem_cons, ← ih]
      have hstep := call.oneInFlight_after_iff hlog.complete
      constructor
      · rintro ⟨hafter, hone, hall⟩
        exact ⟨(hstep hone).mp hafter, hone, hall⟩
      · rintro ⟨hno, hone, hall⟩
        exact ⟨(hstep hone).mpr hno, hone, hall⟩

theorem oneInFlight_iff_no_overbooking_first :
    let h := replay Sample.idle [.enqueue 1, .dequeue, .complete 1, .enqueueDue false, .dequeue]
    h.2.catalog.OneInFlight ∧ h.2.catalog.InFlight 1 2 := by
  intro h
  have hhistory : History h.1 h.2 := history_replay rfl Sample.complete_idle _
  have hnone : ∀ e ∈ h.1, ¬e.2.Overbooks e.1 := by decide +kernel
  exact ⟨((oneInFlight_iff_no_overbooking hhistory).mpr hnone).1, _, rfl, by decide +kernel⟩

/-- A job is queued beside one that is only to be tried again, and two workers end up with jobs of
the same service. -/
theorem two_workers_on_one_service :
    let h := replay Sample.idle
      [.enqueue 1, .dequeue, .fail 1 1 "boom", .enqueue 1, .dequeue, .dequeue]
    History h.1 h.2 ∧ ¬h.2.catalog.OneInFlight ∧
      ∀ id ∈ [1, 2], ∃ row ∈ h.2.catalog.jobs.get? id,
        row.service = 1 ∧ row.state = .known .processing := by
  intro h
  have hheld : ∀ id ∈ [1, 2], ∃ row ∈ h.2.catalog.jobs.get? id,
      row.service = 1 ∧ row.state = .known .processing := by
    decide +kernel
  have hflight : ∀ id ∈ [1, 2], h.2.catalog.InFlight 1 id := by
    intro id hid
    obtain ⟨row, hrow, hservice, hstate⟩ := hheld id hid
    exact ⟨row, hrow, hservice, by rw [hstate]; rfl⟩
  refine ⟨history_replay rfl Sample.complete_idle _, fun hone => ?_, hheld⟩
  have hsame := hone 1 1 2 (hflight 1 (by decide)) (hflight 2 (by decide))
  cases hsame

end Queue

end RepoCatalog
