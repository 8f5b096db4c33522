import RepoCatalog.Proofs.BoundedWork
import RepoCatalog.Proofs.Names
import RepoCatalog.Worker

/-!
# Queue and passes side by side

A pass leaves the jobs alone, and a call of the queue leaves alone all but the jobs. A worker makes
nothing but passes and calls, so while it works the catalog stays one that passes reach and the
queue stays one that calls lead to, and whatever holds of these holds side by side.
-/
namespace RepoCatalog

open Step
open Time (Duration Instant)

namespace Catalog

variable {p : String → Prop} {c d : Catalog}

theorem Write.jobs (h : Write p c d) (hc : c.Furnished) : d.jobs = c.jobs := by
  cases h with
  | bury now q => rfl
  | part q => rfl
  | join hput => exact (putMember_ok hput).1.jobs
  | @add _ row _ _ hadd =>
      rcases addRepo_cases c row with ⟨fault, -, hrefused⟩ | ⟨-, d', hadded, hsetting, -, -⟩
      · cases hrefused.symm.trans hadd
      · cases hadded.symm.trans hadd
        exact hsetting.jobs
  | @replace _ row _ _ _ hreplace =>
      rcases replaceRepo_cases row (contains_of_replaceRepo hreplace) with
        ⟨fault, -, hrefused⟩ | ⟨-, d', hreplaced, hsetting, -, -⟩
      · cases hrefused.symm.trans hreplace
      · cases hreplaced.symm.trans hreplace
        exact hsetting.jobs
  | visit hkind hchange => exact (changeService_ok hc hchange hkind).jobs

theorem jobs_of_writes (h : Relation.ReflTransGen (Write p) c d) (hc : c.Furnished) :
    d.jobs = c.jobs ∧ d.Furnished := by
  induction h with
  | refl => exact ⟨rfl, hc⟩
  | tail _ hwrite ih =>
      obtain ⟨hjobs, hfurnished⟩ := ih
      exact ⟨(hwrite.jobs hfurnished).trans hjobs, (hwrite.grown hfurnished).furnished⟩

end Catalog

theorem Syncer.jobs_perform (y : Syncer) (task : Task) {w : World}
    (hw : w.store.catalog.Furnished) :
    (y.perform task w).2.store.catalog.jobs = w.store.catalog.jobs ∧
      (y.perform task w).2.store.catalog.Furnished := by
  have hbrings : y.Brings (fun _ _ => True) w task := by
    cases task with
    | visit service least => exact fun _ _ _ _ _ _ _ => trivial
    | sync svc repo => trivial
    | syncRepo repo => exact fun _ _ _ => trivial
  exact Catalog.jobs_of_writes (wrote_perform (p := fun _ => True) hw hbrings).catalog hw

namespace Queue

open Store Catalog

variable {α : Type} {s : Store}

/-- All tables but that of the jobs are as they were, and the same transactions are open. -/
structure OnlyJobs (s t : Store) : Prop where
  saved : t.saved = s.saved
  tables : ∃ jobs, t.catalog.toTables = { s.catalog.toTables with jobs }

instance : Chained OnlyJobs where
  refl s := ⟨rfl, s.catalog.jobs, rfl⟩
  trans := by
    rintro s t u ⟨hsaved, jobs, htables⟩ ⟨hsaved', jobs', htables'⟩
    exact ⟨hsaved'.trans hsaved, jobs', by rw [htables', htables]⟩

theorem onlyJobs_now : Within OnlyJobs now :=
  fun s => ⟨rfl, s.catalog.jobs, rfl⟩

theorem onlyJobs_read (tables : List TableName) (f : Catalog → α) :
    Within OnlyJobs (read tables f) :=
  (still_read tables f).mono fun s _ h => h ▸ Chained.refl s

theorem onlyJobs_write {tables : List TableName} {f : Catalog → Catalog.Change α}
    (hf : ∀ c a d, f c = .ok (a, d) → ∃ jobs, d.toTables = { c.toTables with jobs }) :
    Within OnlyJobs (write tables f) := by
  intro s
  rcases write_cases tables f s with ⟨e, hrun⟩ | ⟨a, d, hd, hrun⟩
  · rw [hrun]
    exact Chained.refl s
  · rw [hrun]
    exact ⟨rfl, hf _ _ _ hd⟩

theorem onlyJobs_addJob (service : Int) (now : Instant) :
    Within OnlyJobs (write [.jobs] fun c => c.addJob (.fresh service now)) := by
  refine onlyJobs_write fun c id d hd => ?_
  unfold addJob at hd
  split at hd
  · cases hd
    exact ⟨_, rfl⟩
  · cases hd

theorem onlyJobs_changeJobs (q : Int → JobRow → Bool) (f : JobRow → JobRow) :
    Within OnlyJobs (Queue.changeJobs q f) := by
  refine onlyJobs_write fun c n d hd => ?_
  cases hd
  exact ⟨_, rfl⟩

theorem onlyJobs_changeJob (id : Int) (f : JobRow → JobRow) :
    Within OnlyJobs (write [.jobs] fun c => c.changeJob id f) := by
  refine onlyJobs_write fun c u d hd => ?_
  unfold changeJob at hd
  split at hd
  · cases hd
    exact ⟨_, rfl⟩
  · cases hd

theorem onlyJobs_atomically {body : StoreM α} (h : Within OnlyJobs body) :
    Within OnlyJobs (atomically body) := by
  intro s
  obtain ⟨hsaved, jobs, htables⟩ := h { s with saved := s.catalog :: s.saved }
  rw [run_atomically]
  cases hrun : body { s with saved := s.catalog :: s.saved } with
  | mk r t =>
      rw [hrun] at hsaved htables
      cases r with
      | ok a => exact ⟨congrArg List.tail hsaved, jobs, htables⟩
      | error e =>
          obtain ⟨hcatalog, hrest⟩ := Effect.undo_of_saved hsaved
          exact ⟨hrest, s.catalog.jobs, by rw [hcatalog]⟩

theorem onlyJobs_dequeueWithin (attempts : Nat) : Within OnlyJobs (dequeueWithin attempts) := by
  have hlook : Within OnlyJobs look :=
    Within.bind onlyJobs_now fun _ => Within.bind (onlyJobs_read _ _) fun _ => Within.pure _
  have hhand : ∀ now id seen, Within OnlyJobs (handOut now id seen) := by
    intro now id seen
    have hjob : Within OnlyJobs (jobOfRow id seen) := by
      unfold jobOfRow
      split
      · exact Within.pure _
      · exact Within.throw _
    exact Within.bind hjob fun _ => Within.bind (onlyJobs_read _ _) fun _ => Within.pure _
  induction attempts with
  | zero => exact Within.pure _
  | succ attempts ih =>
      refine Within.bind hlook fun seen => ?_
      obtain ⟨now, _ | ⟨id, row⟩⟩ := seen
      · exact Within.pure _
      · refine Within.bind (Within.bind (onlyJobs_changeJobs _ _) fun _ => Within.pure _)
          fun claimed => ?_
        split
        · exact Within.bind (hhand now id row) fun _ => Within.pure _
        · exact ih

theorem onlyJobs_after (call : Call) (s : Store) : OnlyJobs s (call.after s) := by
  cases call with
  | enqueueDue isCloud =>
      refine (Within.bind onlyJobs_now fun now => onlyJobs_atomically ?_) s
      refine Within.bind (onlyJobs_read _ _) fun due => Within.bind (Within.forM fun id _ => ?_)
        fun _ => Within.pure _
      exact Within.bind (onlyJobs_addJob _ _) fun _ => Within.pure _
  | enqueue service =>
      refine onlyJobs_atomically (Within.bind (onlyJobs_read _ _) fun isBusy => ?_) s
      split
      · exact Within.pure _
      · exact Within.bind onlyJobs_now fun _ =>
          Within.bind (onlyJobs_addJob _ _) fun _ => Within.pure _
  | dequeue => exact onlyJobs_dequeueWithin maxClaimAttempts s
  | heartbeat id =>
      exact (Within.bind onlyJobs_now fun _ =>
        Within.bind (onlyJobs_changeJobs _ _) fun _ => Within.pure _) s
  | complete id =>
      exact (Within.bind onlyJobs_now fun _ =>
        Within.bind (onlyJobs_changeJobs _ _) fun _ => Within.pure _) s
  | fail budget id message =>
      refine (Within.bind (onlyJobs_read _ _) fun seen => ?_) s
      cases seen with
      | none => exact Within.throw _
      | some row =>
          exact Within.bind onlyJobs_now fun _ =>
            Within.bind (onlyJobs_changeJob _ _) fun _ => Within.pure _
  | resetStalled now cutoff most =>
      exact (Within.bind (onlyJobs_changeJobs _ _) fun _ =>
        Within.bind (onlyJobs_changeJobs _ _) fun _ => Within.pure _) s
  | purge cutoff =>
      refine onlyJobs_write (fun c n d hd => ?_) s
      cases hd
      exact ⟨_, rfl⟩

namespace OnlyJobs

variable {t : Store}

theorem repos (h : OnlyJobs s t) : t.catalog.repos = s.catalog.repos := by
  obtain ⟨jobs, htables⟩ := h.tables
  exact (congrArg Tables.repos htables : t.catalog.repos = _)

theorem members (h : OnlyJobs s t) : t.catalog.members = s.catalog.members := by
  obtain ⟨jobs, htables⟩ := h.tables
  exact (congrArg Tables.members htables : t.catalog.members = _)

theorem furnished (h : OnlyJobs s t) (hs : s.catalog.Furnished) : t.catalog.Furnished := by
  obtain ⟨jobs, htables⟩ := h.tables
  have hversion := (congrArg Tables.version htables : t.catalog.version = _)
  have hservices := (congrArg Tables.services htables : t.catalog.services = _)
  exact ⟨hs.tables.of_version hversion, hservices ▸ hs.kinds, hservices ▸ hs.ids⟩

end OnlyJobs

end Queue

namespace Worker

open Catalog Queue Effect

variable {y : Syncer} {settings : WorkerSettings} {p : Service → Repo → Prop} {w w' : World}
variable {α ε δ : Type}

/-- A call that allows for as many failures and for no more resets than the settings do. -/
structure Heeds (settings : WorkerSettings) (call : Call) : Prop where
  budget : ∀ b ∈ call.budget?, b = settings.maxNumRetries
  most : ∀ m ∈ call.most?, m ≤ settings.maxNumResets

/-- What a worker does at a time: a pass over a service, a call of the queue, or something that
leaves the catalog as it is. -/
inductive Act (y : Syncer) (settings : WorkerSettings) (w : World) : World → Prop where
  | pass (service : Int) (least : Duration) :
      Act y settings w (y.perform (.visit service least) w).2
  | call {w' : World} (call : Call) : Heeds settings call → w'.store = call.after w.store →
      Act y settings w w'
  | aside {w' : World} : w'.store.catalog = w.store.catalog → Act y settings w w'

def Working (y : Syncer) (settings : WorkerSettings) : World → World → Prop :=
  Relation.ReflTransGen (Act y settings)

instance : Chained (Working y settings) where
  refl _ := .refl
  trans := .trans

theorem working_call (call : Call) {step : StoreM α} (hcall : Heeds settings call)
    (hstep : ∀ s, (step s).2 = call.after s) : Within (Working y settings) (ofStore step) := by
  intro w
  refine .single (.call call hcall ?_)
  rw [← hstep]
  unfold ofStore
  cases step w.store with
  | mk r s => cases r <;> rfl

theorem working_now : Within (Working y settings) (ofStore Store.now) :=
  fun _ => .single (.aside rfl)

theorem working_aside {effect : Effect ε α} (h : Within SameStore effect) :
    Within (Working y settings) effect :=
  h.mono fun _ _ hsame => .single (.aside (congrArg Store.catalog hsame))

theorem working_ignore {effect : Effect ε α} (h : Within (Working y settings) effect) :
    Within (Working y settings) (effect.ignore : Effect δ Unit) :=
  Within.bind (within_attempt h) fun _ => Within.pure _

theorem working_lengthOf (length : Option Duration) :
    Within (Working y settings) (lengthOf length : Effect ε Duration) := by
  cases length with
  | none => exact Within.throw _
  | some d => exact Within.pure _

theorem working_handle (job : Job) : Within (Working y settings) (handle y job) :=
  Within.bind (working_lengthOf _) fun least _ => .single (.pass job.service least)

theorem working_report (job : Job) (outcome : Except SyncError Unit) :
    Within (Working y settings) (report settings.maxNumRetries job outcome) := by
  cases outcome with
  | ok u => exact working_call (.complete job.id) ⟨nofun, nofun⟩ fun _ => rfl
  | error e =>
      have hheeds : Heeds settings (.fail settings.maxNumRetries job.id e.message) :=
        ⟨fun b hb => (Option.some.inj hb).symm, nofun⟩
      refine Within.bind (R := Working y settings) (fun _ => .refl) fun isCancelled => ?_
      split
      · exact Within.pure _
      · exact Within.bind (working_call _ hheeds fun _ => rfl) fun _ => Within.pure _

theorem working_processNext : Within (Working y settings) (processNext y settings) := by
  refine Within.bind (working_call .dequeue ⟨nofun, nofun⟩ fun _ => rfl) fun next => ?_
  cases next with
  | none => exact Within.pure _
  | some job =>
      exact Within.bind (within_attempt (working_handle job)) fun outcome =>
        Within.bind (working_report job outcome) fun _ => Within.pure _

theorem working_timeAgo (age : Duration) : Within (Working y settings) (timeAgo age) := by
  refine Within.bind working_now fun now => ?_
  split
  · exact Within.pure _
  · exact Within.throw _

theorem working_resetterTick : Within (Working y settings) (resetterTick settings) := by
  refine Within.bind (working_lengthOf _) fun age => Within.bind ?_ fun _ => Within.pure _
  refine Within.bind working_now fun now => Within.bind (working_timeAgo age) fun cutoff => ?_
  refine working_call (.resetStalled now cutoff settings.maxNumResets) ⟨nofun, ?_⟩ fun _ => rfl
  exact fun m hm => Nat.le_of_eq (Option.some.inj hm).symm

theorem working_cleanerTick : Within (Working y settings) (cleanerTick settings) :=
  Within.bind (working_lengthOf _) fun retention => Within.bind (working_timeAgo retention)
    fun cutoff => working_call (.purge cutoff) ⟨nofun, nofun⟩ fun _ => rfl

theorem working_schedulerTick (sync : SyncSettings) :
    Within (Working y settings) (schedulerTick sync) := by
  unfold schedulerTick
  split
  · exact Within.pure _
  · exact Within.bind (working_call (.enqueueDue sync.cloudMode) ⟨nofun, nofun⟩ fun _ => rfl)
      fun _ => Within.pure _

theorem working_atOnce (interval : Nat) {tick : Errand α} (h : Within (Working y settings) tick) :
    Within (Working y settings) (atOnce interval tick) := by
  unfold atOnce
  split
  · exact Within.bind (within_attempt h) fun _ => Within.pure _
  · exact Within.pure _

theorem working_upkeep : Within (Working y settings) (upkeep y settings) := by
  refine Within.bind (working_atOnce _ (working_schedulerTick _)) fun _ =>
    Within.bind (working_atOnce _ working_resetterTick) fun _ => ?_
  split
  · exact working_atOnce _ working_cleanerTick
  · exact Within.pure _

theorem working_workOff (enough rounds : Nat) :
    Within (Working y settings) (workOff y settings enough rounds) := by
  induction rounds with
  | zero => exact Within.pure _
  | succ rounds ih =>
      refine Within.bind working_upkeep fun _ =>
        Within.bind (R := Working y settings) Within.get fun w => ?_
      split
      · exact Within.pure _
      · refine Within.bind (within_attempt working_processNext) fun found => ?_
        split
        · exact ih
        · exact Within.pure _

theorem working_publishStored : Within (Working y settings) y.publishStored := by
  unfold Syncer.publishStored
  split
  · exact Within.pure _
  · exact Within.bind (working_aside (still_store (Store.still_listRepos _))) fun repos =>
      working_aside (Syncer.still_publish y _)

theorem working_run (enough rounds : Nat) :
    Within (Working y settings) (run y settings enough rounds) :=
  Within.bind (working_ignore working_publishStored) fun _ =>
    Within.bind (working_workOff enough rounds) fun _ =>
      Within.bind (R := Working y settings) Within.get fun _ => Within.pure _

/-- Passes lead to the catalog of a store, and the calls of a log to its queue. -/
structure Kept (p : Service → Repo → Prop) (log : List (Store × Call)) (s : Store) : Prop where
  reached : Reachable p s.catalog
  queue : Queue.Run log s

variable {log : List (Store × Call)}

/-- One act of a worker keeps both, as far as passes bring up what they may. -/
theorem Act.kept (h : Act y settings w w') (hw : Kept p log w.store)
    (hbrings : ∀ service least, y.Brings p w (.visit service least)) :
    ∃ more, Kept p (more ++ log) w'.store ∧ ∀ e ∈ more, Heeds settings e.2 := by
  have hfurnished := hw.reached.rooted.furnished
  cases h with
  | pass service least =>
      obtain ⟨hjobs, hafter⟩ := y.jobs_perform (.visit service least) hfurnished
      exact ⟨[], ⟨.pass y _ hw.reached (hbrings service least),
        .elsewhere hw.queue hjobs hafter.tables⟩, List.forall_mem_nil _⟩
  | call call hcall hstore =>
      have honly := onlyJobs_after call w.store
      refine ⟨[(w.store, call)], ?_, ?_⟩
      · rw [hstore]
        exact ⟨.elsewhere hw.reached honly.repos honly.members (honly.furnished hfurnished),
          .call call hw.queue⟩
      · exact List.forall_mem_singleton.mpr hcall
  | aside hsame =>
      refine ⟨[], ⟨hsame ▸ hw.reached, .elsewhere hw.queue ?_ ?_⟩, List.forall_mem_nil _⟩
      · rw [hsame]
      · rw [hsame]
        exact hfurnished.tables

/-- All that a worker does keeps both. -/
theorem Working.kept (h : Working y settings w w') (hw : Kept p log w.store)
    (hbrings : ∀ v service least, y.Brings p v (.visit service least)) :
    ∃ more, Kept p (more ++ log) w'.store ∧ ∀ e ∈ more, Heeds settings e.2 := by
  induction h with
  | refl => exact ⟨[], hw, List.forall_mem_nil _⟩
  | tail _ hact ih =>
      obtain ⟨earlier, hkept, hearlier⟩ := ih
      obtain ⟨later, hlast, hlater⟩ := hact.kept hkept (hbrings _)
      refine ⟨later ++ earlier, ?_, List.forall_mem_append.mpr ⟨hlater, hearlier⟩⟩
      rw [List.append_assoc]
      exact hlast

/-- However a worker runs, it leaves a row live if and only if some service holds it, it leaves
coherent rows of jobs, and it hands out no job more often than its settings allow. -/
theorem run_leaves (y : Syncer) (settings : WorkerSettings) (hw : Kept Repo.ListedBy log w.store)
    (hlog : ∀ e ∈ log, Heeds settings e.2)
    (hbrings : ∀ v service least, y.Brings Repo.ListedBy v (.visit service least))
    (enough rounds : Nat) :
    let s := (run y settings enough rounds w).2.store
    s.catalog.Tidy ∧
      (∀ id, ∀ row ∈ s.catalog.jobs.get? id, row.Coherent settings.maxNumRetries) ∧
      ∃ more, Queue.Run (more ++ log) s ∧ ∀ id,
        timesHanded id (more ++ log) ≤ 1 + settings.maxNumResets + settings.maxNumRetries := by
  obtain ⟨more, hkept, hmore⟩ := (working_run enough rounds w).kept hw hbrings
  have hall : ∀ e ∈ more ++ log, Heeds settings e.2 := List.forall_mem_append.mpr ⟨hmore, hlog⟩
  have hbudget : ∀ e ∈ more ++ log, ∀ b ∈ e.2.budget?, b = settings.maxNumRetries :=
    fun e he => (hall e he).budget
  refine ⟨hkept.reached.tidy, fun id => ?_, more, hkept.queue, fun id => ?_⟩
  · exact hkept.queue.forall_rows (fun hcall hmove => hmove.coherent hcall) hbudget id
  · exact (counted hkept.queue hbudget (fun e he => (hall e he).most) id).bound

end Worker

namespace Sample

/-- Whoever makes streaming passes over services that all list these names. -/
def host (names : List String) : Syncer :=
  { syncer [] with
    isStreaming := true
    sourceOf := fun svc => .ok (names.map fun name =>
      .ok { entry name name with claims := .solo svc.urn name }) }

/-- A store with a job for the code host. -/
def queued : World :=
  { base with store := (Queue.Call.enqueue 1).after base.store }

theorem host_brings (names : List String) (w : World) (service : Int) (least : Duration) :
    (host names).Brings Repo.ListedBy w (.visit service least) := by
  rintro svc - - items hitems r hr
  cases hitems
  obtain ⟨name, -, hname⟩ := List.mem_map.mp hr
  cases hname
  exact ⟨rfl, rfl, name, rfl⟩

theorem kept_queued : Worker.Kept Repo.ListedBy [(base.store, .enqueue 1)] queued.store where
  reached :=
    have honly := Queue.onlyJobs_after (.enqueue 1) base.store
    .elsewhere (.start rfl rfl furnished_base) honly.repos honly.members
      (honly.furnished furnished_base)
  queue := .call _ (.start rfl furnished_base.tables)

end Sample

/-- A worker lists two repositories for the job that it finds, and completes it. -/
theorem Worker.run_leaves_listed :
    let s := (run (Sample.host ["alpha", "beta"]) .default 1 2 Sample.queued).2.store
    s.catalog.Tidy ∧ (s.catalog.repos.get? 2).isSome = true ∧
      ∃ row, s.catalog.jobs.get? 1 = some row ∧ row.state = .known .completed ∧ row.Coherent 0 := by
  intro s
  obtain ⟨htidy, hcoherent, -⟩ := run_leaves (Sample.host ["alpha", "beta"]) .default
    Sample.kept_queued (List.forall_mem_singleton.mpr ⟨nofun, nofun⟩) (Sample.host_brings _) 1 2
  have hends : (s.catalog.repos.get? 2).isSome = true ∧
      ∃ row ∈ s.catalog.jobs.get? 1, row.state = .known .completed := by
    decide +kernel
  obtain ⟨hlisted, row, hrow, hstate⟩ := hends
  exact ⟨htidy, hlisted, row, hrow, hstate, hcoherent 1 row hrow⟩

end RepoCatalog
