import Mathlib.Algebra.Order.BigOperators.Group.List
import Mathlib.Algebra.Order.Ring.Nat
import RepoCatalog.Proofs.SideBySide
import RepoCatalog.Proofs.Usable

/-!
# Working off the queue

In a turn a worker claims a job that is ready, makes the pass that it asks for, and reports how that
ended, unless it is told to stop. Whatever comes of it, the turn uses up a try of the job. So with
settings that are accepted, between whose rounds of upkeep there is some time, a worker comes to an
end.
-/
namespace RepoCatalog

open Step
open Time (Duration Instant)

namespace Queue

open Store Catalog

variable {s : Store}

theorem run_dequeue (hs : s.catalog.Complete) {id : Int} {row : JobRow}
    (hnext : next? s.catalog s.clock = some (id, row)) :
    ∃ job, job.id = id ∧ dequeue s = (.ok (some job), Call.dequeue.after s) ∧
      ∀ k, (Call.dequeue.after s).catalog.jobs.get? k =
        if k = id then some (claimedRow s.clock row) else s.catalog.jobs.get? k := by
  obtain ⟨hmem, hready⟩ := mem_of_next? hnext
  have hrow := Table.get?_eq_some_iff.mpr hmem
  obtain ⟨seen, hseen, rfl, -⟩ := toJob?_ok id (inFlight_of_ready hready)
  have hrun := dequeue_of_next hs hnext hseen
  have hpair : dequeue s = ((dequeue s).1, Call.dequeue.after s) := rfl
  rw [congrArg Prod.fst hrun] at hpair
  refine ⟨_, ?_, hpair, fun k => ?_⟩
  · rfl
  · rw [Call.after, hrun]
    refine (get?_changedJobs_of_service s.catalog _ (claimedRow s.clock) (fun _ => rfl) k).trans ?_
    by_cases hk : k = seen.id
    · subst hk
      rw [hrow, Option.map_some, beq_self_eq_true, if_pos rfl, if_pos rfl]
    · simp only [beq_iff_eq, hk, if_false, Option.map_id']

theorem run_complete (hs : s.catalog.Complete) (id : Int) :
    complete id s = (.ok (), (Report.success.call id).after s) := by
  have hrun : (complete id s).1 = .ok () := by
    unfold complete
    rw [bind_of_ok (run_now s), bind_of_ok (run_changeJobs (by exact hs) _ _)]
    rfl
  exact Prod.ext hrun rfl

theorem run_fail (hs : s.catalog.Complete) {id : Int} {row : JobRow}
    (hrow : s.catalog.jobs.get? id = some row) (budget : Nat) (message : String) :
    ∃ state, fail budget id message s =
      (.ok state, ((Report.failure budget message).call id).after s) := by
  have hrun : ∃ state, (fail budget id message s).1 = .ok state := by
    unfold fail enterFailure
    rw [bind_of_ok (run_read hs _ _), hrow]
    simp only []
    rw [bind_of_ok (run_now s), bind_of_ok (run_write_of_ok (by exact hs) (changeJob_ok hrow _))]
    exact ⟨_, rfl⟩
  obtain ⟨state, hstate⟩ := hrun
  exact ⟨state, Prod.ext hstate rfl⟩

/-- How often a job can still be taken up: once at least while it waits for a worker, and once more
for every failure that is left to it. -/
def triesLeft (budget : Nat) (row : JobRow) : Nat :=
  if row.isWaiting then max 1 (budget + 1 - row.numFailures).toNat else 0

def tries (budget : Nat) (c : Catalog) : Nat :=
  (c.jobs.toList.map fun e => triesLeft budget e.2).sum

theorem toList_of_replaced {t u : Table JobRow} {id : Int} {row row' : JobRow}
    (hrow : t.get? id = some row)
    (h : ∀ k, u.get? k = if k = id then some row' else t.get? k) :
    u.toList = t.toList.map fun e => (e.1, if e.1 = id then row' else e.2) := by
  have hrows : u.rows = t.rows.mapEntries fun k old => if k = id then row' else old := by
    refine Dict.ext_get? fun k => (h k).trans ?_
    rw [Dict.get?_mapEntries]
    by_cases hk : k = id
    · subst hk
      rw [if_pos rfl, show t.rows.get? k = some row from hrow, Option.map_some, if_pos rfl]
    · simp only [hk, if_false, Option.map_id']
      rfl
  unfold Table.toList
  rw [hrows]
  rfl

/-- One job that has fewer tries left, and all others as before, make fewer tries. -/
theorem tries_lt {budget : Nat} {c d : Catalog} {id : Int} {row row' : JobRow}
    (hrow : c.jobs.get? id = some row)
    (h : ∀ k, d.jobs.get? k = if k = id then some row' else c.jobs.get? k)
    (hlt : triesLeft budget row' < triesLeft budget row) : tries budget d < tries budget c := by
  unfold tries
  rw [toList_of_replaced hrow h, List.map_map]
  refine List.sum_lt_sum _ _ (fun e he => ?_) ⟨(id, row), Table.get?_eq_some_iff.mp hrow, ?_⟩
  · simp only [Function.comp_apply]
    split
    · rename_i hid
      have hold := Table.get?_eq_some_iff.mpr he
      rw [hid, hrow] at hold
      cases hold
      exact Nat.le_of_lt hlt
    · exact Nat.le_refl _
  · simp only [Function.comp_apply, if_true]
    exact hlt

end Queue

namespace Worker

open Catalog Queue Effect

variable {y : Syncer} {settings : WorkerSettings} {w : World}

/-- How a worker leaves the job that it has claimed: reported as its pass ended, or as it is when
the pass was told to stop. -/
inductive Leaves (budget : Nat) (w' : World) (row : JobRow) :
    Except SyncError Unit → JobRow → Prop where
  | completed (now : Instant) : Leaves budget w' row (.ok ()) (Report.success.mark now row)
  | failed (now : Instant) (e : SyncError) :
      Leaves budget w' row (.error e) ((Report.failure budget e.message).mark now row)
  | left {e : SyncError} : hasStopped e = true → w'.isCancelled = true →
      Leaves budget w' row (.error e) row

/-- Whatever comes of a job that was ready, it uses up a try. -/
theorem Leaves.triesLeft_lt {budget : Nat} {w' : World} {outcome : Except SyncError Unit}
    {row row' : JobRow} {now : Instant} (hready : row.isReady now = true)
    (h : Leaves budget w' (claimedRow now row) outcome row') :
    triesLeft budget row' < triesLeft budget row := by
  have hpos : triesLeft budget row = max 1 (budget + 1 - row.numFailures).toNat := by
    rw [triesLeft, if_pos (isWaiting_of_ready hready)]
  cases h with
  | completed at_ =>
      change 0 < _
      omega
  | left _ _ =>
      change 0 < _
      omega
  | failed at_ e =>
      have hfailures : ((Report.failure budget e.message).mark at_
          (claimedRow now row)).numFailures = row.numFailures + 1 := rfl
      have hnumber : (claimedRow now row).numFailures = row.numFailures := rfl
      rw [hpos, triesLeft, isWaiting_failure, hfailures, hnumber]
      by_cases hleft : row.numFailures + 1 ≤ budget
      · rw [decide_eq_true hleft, if_pos rfl]
        omega
      · rw [decide_eq_false hleft]
        change 0 < _
        omega

/-- The world in which a worker makes the pass for the job that it has claimed. -/
def claimed (w : World) : World :=
  { w with store := Call.dequeue.after w.store }

/-- How a turn of a worker ends: no job is ready, the pass for a job that was ready breaks off and
leaves it claimed, or the pass ends and the job is left. All other jobs are as before. -/
inductive Turn (y : Syncer) (budget : Nat) (w : World) :
    Except (Abort StoreError) Bool × World → Prop where
  | idle : next? w.store.catalog w.store.clock = none →
      Turn y budget w (.ok false, { w with store := w.store.tick })
  | broken {job : Job} {row : JobRow} {d : Defect} {w' : World} :
      w.store.catalog.jobs.get? job.id = some row → row.isReady w.store.clock = true →
      (∀ k, w'.store.catalog.jobs.get? k =
        if k = job.id then some (claimedRow w.store.clock row)
        else w.store.catalog.jobs.get? k) →
      Turn y budget w (.error (.defect d), w')
  | taken {job : Job} {row row' : JobRow} {outcome : Except SyncError Unit} {w' : World} :
      w.store.catalog.jobs.get? job.id = some row → row.isReady w.store.clock = true →
      ((handle y job).attempt (claimed w) : Except (Abort StoreError) _ × World).1 = .ok outcome →
      Leaves budget w' (claimedRow w.store.clock row) outcome row' →
      w'.store.catalog.Furnished →
      (∀ k, w'.store.catalog.jobs.get? k =
        if k = job.id then some row' else w.store.catalog.jobs.get? k) →
      Turn y budget w (.ok true, w')

theorem jobs_handle (hw : w.store.catalog.Furnished) (job : Job) :
    (handle y job w).2.store.catalog.jobs = w.store.catalog.jobs ∧
      (handle y job w).2.store.catalog.Furnished := by
  unfold handle
  cases y.settings.leastInterval? with
  | none => exact ⟨rfl, hw⟩
  | some least => exact y.jobs_perform (.visit job.service least) hw

theorem run_ofStore {α : Type} {step : StoreM α} {a : α} {t : Store}
    (h : step w.store = (.ok a, t)) : ofStore step w = (.ok a, { w with store := t }) := by
  unfold ofStore
  rw [h]

/-- A job that is there can be reported, whatever came of its pass. -/
theorem report_leaves (hw : w.store.catalog.Furnished) {job : Job} {row : JobRow}
    (hrow : w.store.catalog.jobs.get? job.id = some row) (budget : Nat)
    (outcome : Except SyncError Unit) : ∃ row' w', report budget job outcome w = (.ok (), w') ∧
      Leaves budget w' row outcome row' ∧ w'.store.catalog.Furnished ∧
      ∀ k, w'.store.catalog.jobs.get? k =
        if k = job.id then some row' else w.store.catalog.jobs.get? k := by
  have hmark : ∀ r : Report, ∀ k, ((r.call job.id).after w.store).catalog.jobs.get? k =
      if k = job.id then some (r.mark w.store.clock row) else w.store.catalog.jobs.get? k := by
    intro r k
    rw [r.get?_after hw.tables]
    by_cases hk : k = job.id
    · rw [hk, hrow, Option.map_some, if_pos rfl, if_pos rfl]
    · simp only [hk, if_false, Option.map_id']
  cases outcome with
  | ok u =>
      exact ⟨_, _, run_ofStore (run_complete hw.tables job.id), .completed _,
        (onlyJobs_after _ _).furnished hw, hmark .success⟩
  | error e =>
      have hcancelled : (Effect.isCancelled : Errand Bool) w = (.ok w.isCancelled, w) := rfl
      unfold report
      simp only []
      rw [bind_of_ok hcancelled]
      cases hleft : hasStopped e && w.isCancelled with
      | true =>
          obtain ⟨hstopped, htold⟩ := Bool.and_eq_true_iff.mp hleft
          refine ⟨row, w, rfl, .left hstopped htold, hw, fun k => ?_⟩
          split
          · rename_i hk
            rw [hk, hrow]
          · rfl
      | false =>
          obtain ⟨state, hrun⟩ := run_fail hw.tables hrow budget e.message
          rw [if_neg (by decide), bind_of_ok (run_ofStore hrun)]
          exact ⟨_, _, rfl, .failed w.store.clock e, (onlyJobs_after _ _).furnished hw,
            hmark (.failure budget e.message)⟩

theorem turn (y : Syncer) (settings : WorkerSettings) (hw : w.store.catalog.Furnished) :
    Turn y settings.maxNumRetries w (processNext y settings w) := by
  unfold processNext
  cases hnext : next? w.store.catalog w.store.clock with
  | none =>
      rw [bind_of_ok (run_ofStore (dequeue_of_none hw.tables hnext))]
      exact .idle hnext
  | some e =>
      obtain ⟨id, row⟩ := e
      obtain ⟨hmem, hready⟩ := mem_of_next? hnext
      have hrow := Table.get?_eq_some_iff.mpr hmem
      obtain ⟨job, rfl, hdequeue, hclaimed⟩ := run_dequeue hw.tables hnext
      have hv : (claimed w).store.catalog.Furnished :=
        (onlyJobs_after .dequeue w.store).furnished hw
      obtain ⟨hjobs, hu⟩ := jobs_handle (y := y) hv job
      have hrows : ∀ k, (handle y job (claimed w)).2.store.catalog.jobs.get? k =
          if k = job.id then some (claimedRow w.store.clock row)
          else w.store.catalog.jobs.get? k := by
        rw [hjobs]
        exact hclaimed
      rw [bind_of_ok (run_ofStore hdequeue)]
      change Turn y settings.maxNumRetries w (Bind.bind (m := Errand) _ _ (claimed w))
      rcases attempt_cases (δ := StoreError) (handle y job) (claimed w) with ⟨r, hr⟩ | ⟨d, hd⟩
      · have hheld := (hrows job.id).trans (if_pos rfl)
        obtain ⟨row', w', hreport, hleaves, hw', hleft⟩ :=
          report_leaves hu hheld settings.maxNumRetries r
        rw [bind_of_ok hr, bind_of_ok hreport]
        refine .taken hrow hready (congrArg Prod.fst hr) hleaves hw' fun k => ?_
        rw [hleft, hrows]
        split
        · rfl
        · rfl
      · rw [bind_of_error hd]
        exact .broken hrow hready hrows

theorem upkeep_of_valid (hsync : y.settings.validate = .ok ())
    (hworker : settings.validate = .ok ()) (w : World) : upkeep y settings w = (.ok (), w) := by
  have hlate : ∀ {α : Type} {n : Nat} (tick : Errand α), 0 < n → atOnce n tick = pure () :=
    fun tick hn => if_neg (Nat.ne_of_gt hn)
  unfold SyncSettings.validate at hsync
  split at hsync
  · cases hsync
  · have hsync' := Settings.checkPositive_ok_iff.mp hsync
    have hworker' := Settings.checkPositive_ok_iff.mp hworker
    unfold upkeep
    rw [hlate _ (hsync' ("ENQUEUE_INTERVAL_SECONDS", _) (by simp)),
      hlate _ (hworker' ("RESETTER_INTERVAL_SECONDS", _) (by simp)),
      hlate _ (hworker' ("CLEANUP_INTERVAL_SECONDS", _) (by simp))]
    cases settings.cleanupOldJobs with
    | true => rfl
    | false => rfl

/-- Why a worker does not go on: it is told to stop, as many jobs as it is to see have come to an
end, or no job was ready when it looked last. -/
inductive Stopped (enough : Nat) (w : World) : Prop where
  | told : w.isCancelled = true → Stopped enough w
  | satisfied : enough ≤ finishedJobs w → Stopped enough w
  | idle (s : Store) : next? s.catalog s.clock = none → w.store = s.tick → Stopped enough w

/-- With settings that are accepted a worker comes to an end after no more turns than its jobs have
tries left, unless a pass breaks off. -/
theorem workOff_stops (hsync : y.settings.validate = .ok ()) (hworker : settings.validate = .ok ())
    (enough rounds : Nat) (hw : w.store.catalog.Furnished)
    (hrounds : tries settings.maxNumRetries w.store.catalog < rounds) :
    (∃ d w', workOff y settings enough rounds w = (.error (.defect d), w')) ∨
      ∃ w', workOff y settings enough rounds w = (.ok (), w') ∧ Stopped enough w' := by
  induction rounds generalizing w with
  | zero => exact absurd hrounds (Nat.not_lt_zero _)
  | succ rounds ih =>
      have hget : (getThe World : Errand World) w = (.ok w, w) := rfl
      unfold workOff
      rw [bind_of_ok (upkeep_of_valid hsync hworker w), bind_of_ok hget]
      by_cases hstop : (w.isCancelled || enough ≤ finishedJobs w) = true
      · rw [if_pos hstop]
        refine .inr ⟨w, rfl, ?_⟩
        rcases Bool.or_eq_true_iff.mp hstop with htold | henough
        · exact .told htold
        · exact .satisfied (of_decide_eq_true henough)
      · rw [if_neg hstop]
        have hturn := turn y settings hw
        generalize hrun : processNext y settings w = r at hturn
        cases hturn with
        | idle hnext =>
            rw [bind_of_ok (attempt_of_ok hrun)]
            exact .inr ⟨_, rfl, .idle w.store hnext rfl⟩
        | broken hrow hready hrows =>
            rw [bind_of_error (attempt_of_defect hrun)]
            exact .inl ⟨_, _, rfl⟩
        | taken hrow hready hended hleaves hw' hrows =>
            have hfewer := tries_lt hrow hrows (hleaves.triesLeft_lt hready)
            rw [bind_of_ok (attempt_of_ok hrun)]
            exact ih hw' (Nat.lt_of_lt_of_le hfewer (Nat.le_of_lt_succ hrounds))

/-- Two rounds are more than the one job of the queue asks for. -/
theorem workOff_stops_listed :
    let r := workOff (Sample.host ["alpha", "beta"]) .default 2 2 Sample.queued
    r.1.isOk = true ∧ Stopped 2 r.2 := by
  intro r
  have hok : r.1.isOk = true := by decide +kernel
  have hsync : (Sample.host ["alpha", "beta"]).settings.validate = .ok () := rfl
  have hworker : WorkerSettings.default.validate = .ok () := rfl
  have hrounds : tries 0 Sample.queued.store.catalog < 2 := by decide +kernel
  have hstops : (∃ d w', r = (.error (.defect d), w')) ∨ ∃ w', r = (.ok (), w') ∧ Stopped 2 w' :=
    workOff_stops hsync hworker 2 2 Sample.kept_queued.reached.rooted.furnished hrounds
  rcases hstops with ⟨d, w', hrun⟩ | ⟨w', hrun, hstopped⟩
  · rw [hrun] at hok
    cases hok
  · rw [hrun]
    exact ⟨rfl, hstopped⟩

end Worker

end RepoCatalog
