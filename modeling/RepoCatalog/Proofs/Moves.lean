import RepoCatalog.Proofs.Effects
import RepoCatalog.Proofs.Flight

/-!
# Moves of jobs

What each call of the queue does to the row of a job: the job is queued under an id that none ever
had, claimed by a worker, heard of, marked as its worker reports it, taken from its worker, or
forgotten. All other rows stay as they are. What holds of jobs along a run of calls is read off
these moves.
-/
namespace RepoCatalog

open Step
open Time (Instant)

theorem Table.get?_of_lastId_lt {α : Type} {t : Table α} {id : Int} (h : t.lastId < id) :
    t.get? id = none := by
  refine Option.eq_none_iff_forall_ne_some.mpr fun row hrow => ?_
  exact absurd (t.le_lastId (id, row) (get?_eq_some_iff.mp hrow)) (Int.not_le.mpr h)

theorem Catalog.get?_changedJobs_of_service (c : Catalog) (p : Int → JobRow → Bool)
    (f : JobRow → JobRow) (hf : ∀ row, (f row).service = row.service) (id : Int) :
    (c.changeJobs p f).2.jobs.get? id =
      (c.jobs.get? id).map fun row => if p id row then f row else row := by
  rw [get?_changedJobs]
  refine Option.map_congr fun row _ => ?_
  rw [← hf row]

namespace Queue

open Store Catalog

variable {s : Store}

/-- How a pass ended, as its worker reports it. -/
inductive Report where
  | success
  | failure (budget : Nat) (message : String)

namespace Report

/-- The call by which a job is reported. -/
def call (job : Int) : Report → Call
  | .success => .complete job
  | .failure budget message => .fail budget job message

/-- The row of a job after a report. -/
def mark (now : Instant) (row : JobRow) : Report → JobRow
  | .success => { row with state := .known .completed, finishedAt := some now }
  | .failure budget message =>
      { row with
        state := .known (if (budget : Int) < row.numFailures + 1 then .failed else .errored)
        numFailures := row.numFailures + 1
        failureMessage := some message
        finishedAt := some now }

theorem get?_after (hs : s.catalog.Complete) (job : Int) (report : Report) (id : Int) :
    ((report.call job).after s).catalog.jobs.get? id =
      (s.catalog.jobs.get? id).map fun row => if id = job then report.mark s.clock row else row := by
  cases report with
  | success =>
      simp only [call, Call.after, complete]
      rw [bind_of_ok (run_now s), bind_of_ok (run_changeJobs (by exact hs) _ _)]
      refine (get?_changedJobs s.catalog _ _ id).trans ?_
      simp only [beq_iff_eq, mark]
  | failure budget message =>
      simp only [call, Call.after, fail, enterFailure]
      rw [bind_of_ok (run_read hs _ _)]
      cases hrow : s.catalog.jobs.get? job with
      | none =>
          by_cases hid : id = job
          · subst hid
            rw [hrow]
            exact hrow
          · simp only [if_neg hid, Option.map_id']
            rfl
      | some row =>
          simp only []
          rw [bind_of_ok (run_now s),
            bind_of_ok (run_write_of_ok (by exact hs) (changeJob_ok hrow _))]
          refine (get?_changedJobs s.catalog _ _ id).trans ?_
          by_cases hid : id = job
          · subst hid
            rw [hrow]
            simp only [beq_self_eq_true, if_true, Option.map_some, mark]
          · simp only [beq_iff_eq, hid, if_false]

end Report

/-- Jobs are only added, just queued, and under ids that no job ever had. -/
structure Adding (s t : Store) : Prop where
  saved : t.saved = s.saved
  lastId : s.catalog.jobs.lastId ≤ t.catalog.jobs.lastId
  get? : ∀ id, t.catalog.jobs.get? id = s.catalog.jobs.get? id ∨
    s.catalog.jobs.lastId < id ∧
      ∃ service now, t.catalog.jobs.get? id = some (.fresh service now)

theorem Adding.of_catalog {s t : Store} (hsaved : t.saved = s.saved)
    (hcatalog : t.catalog = s.catalog) : Adding s t := by
  refine ⟨hsaved, Int.le_of_eq ?_, fun id => .inl ?_⟩
  · rw [hcatalog]
  · rw [hcatalog]

instance : Chained Adding where
  refl _ := .of_catalog rfl rfl
  trans {s t u} h h' := by
    refine ⟨h'.saved.trans h.saved, Int.le_trans h.lastId h'.lastId, fun id => ?_⟩
    rcases h'.get? id with hsame | ⟨hnew, hfresh⟩
    · rw [hsame]
      exact h.get? id
    · exact .inr ⟨Int.lt_of_le_of_lt h.lastId hnew, hfresh⟩

theorem adding_read {α : Type} (tables : List TableName) (f : Catalog → α) :
    Within Adding (read tables f) := by
  have hrequire : Within Adding (require tables .refusedRead) := by
    intro s
    rw [snd_require]
    exact Chained.refl s
  exact Within.bind hrequire fun _ => Within.bind Within.get fun _ => Within.pure _

theorem adding_addJob (service : Int) (now : Instant) :
    Within Adding (write [.jobs] fun c => c.addJob (.fresh service now)) := by
  intro s
  rcases write_cases [.jobs] (fun c => c.addJob (.fresh service now)) s with
    ⟨e, hrun⟩ | ⟨id, d, hadd, hrun⟩
  · rw [hrun]
    exact Chained.refl s
  · rw [hrun]
    unfold addJob at hadd
    split at hadd
    · cases hadd
      have hnext : s.catalog.jobs.lastId < s.catalog.jobs.nextId := Int.lt_succ _
      refine ⟨rfl, Int.le_of_lt hnext, fun k => ?_⟩
      by_cases hk : k = s.catalog.jobs.nextId
      · subst hk
        exact .inr ⟨hnext, service, now, (Table.get?_append _ _ _).trans (if_pos rfl)⟩
      · exact .inl ((Table.get?_append _ _ k).trans (if_neg hk))
    · cases hadd

theorem adding_atomically {α : Type} {body : StoreM α} (h : Within Adding body) :
    Within Adding (atomically body) := by
  intro s
  have hbody := h { s with saved := s.catalog :: s.saved }
  rw [run_atomically]
  cases hrun : body { s with saved := s.catalog :: s.saved } with
  | mk r t =>
      rw [hrun] at hbody
      cases r with
      | ok a => exact ⟨congrArg List.tail hbody.saved, hbody.lastId, hbody.get?⟩
      | error e =>
          obtain ⟨hcatalog, hsaved⟩ := Effect.undo_of_saved hbody.saved
          exact .of_catalog hsaved hcatalog

theorem adding_now : Within Adding now :=
  fun _ => .of_catalog rfl rfl

theorem adding_enqueueDue (isCloud : Bool) : Within Adding (enqueueDue isCloud) := by
  refine Within.bind adding_now fun now => adding_atomically ?_
  refine Within.bind (adding_read _ _) fun due => Within.bind (Within.forM fun id _ => ?_)
    fun _ => Within.pure _
  exact Within.bind (adding_addJob _ _) fun _ => Within.pure _

theorem adding_enqueue (service : Int) : Within Adding (enqueue service) := by
  refine adding_atomically (Within.bind (adding_read _ _) fun isBusy => ?_)
  cases isBusy with
  | true => exact Within.pure _
  | false =>
      exact Within.bind adding_now fun now =>
        Within.bind (adding_addJob _ _) fun _ => Within.pure _

theorem get?_heartbeat (hs : s.catalog.Complete) (job id : Int) :
    (heartbeat job s).2.catalog.jobs.get? id = (s.catalog.jobs.get? id).map fun row =>
      if (id == job && row.state == .known .processing) = true
        then { row with lastHeartbeatAt := some s.clock } else row := by
  unfold heartbeat
  rw [bind_of_ok (run_now s), bind_of_ok (run_changeJobs (by exact hs) _ _)]
  exact get?_changedJobs s.catalog _ _ id

theorem get?_purge (hs : s.catalog.Complete) (cutoff : Instant) (id : Int) :
    (purge cutoff s).2.catalog.jobs.get? id =
      (s.catalog.jobs.get? id).filter fun row => !row.isOld cutoff := by
  have hrun : purge cutoff s = (.ok (s.catalog.dropJobs fun _ row => row.isOld cutoff).1,
      { s with catalog := (s.catalog.dropJobs fun _ row => row.isOld cutoff).2 }) :=
    run_write_of_ok hs rfl
  rw [hrun]
  ext row
  simp only [dropJobs, Table.get?_eq_some_iff, Table.mem_filter, Option.filter_eq_some_iff]

/-- The row of a job after a reset. A stalled job has been reset too often, and fails, or is queued
again. -/
def resetRow (now cutoff : Instant) (most : Int) (row : JobRow) : JobRow :=
  if row.isStalled cutoff = true then
    if most ≤ row.numResets then diedRow now row else requeuedRow row
  else row

theorem reset_twice (now cutoff : Instant) (most : Int) (row : JobRow) :
    let failed := if (row.isStalled cutoff && most ≤ row.numResets) = true then diedRow now row
      else row
    (failed.isStalled cutoff && failed.numResets < most) =
        (row.isStalled cutoff && row.numResets < most) ∧
      (if (failed.isStalled cutoff && failed.numResets < most) = true then requeuedRow failed
        else failed) = resetRow now cutoff most row := by
  have hdied : (diedRow now row).isStalled cutoff = false := rfl
  unfold resetRow
  cases hstalled : row.isStalled cutoff with
  | false => simp [hstalled]
  | true =>
      by_cases hmost : most ≤ row.numResets
      · simp [hdied, hmost, Int.not_lt.mpr hmost]
      · simp [hstalled, hmost, Int.not_le.mp hmost]

theorem run_resetStalled (hs : s.catalog.Complete) (now cutoff : Instant) (most : Nat) :
    ∃ d : Catalog, resetStalled now cutoff most s =
        (.ok ⟨s.catalog.jobs.count fun _ row =>
            row.isStalled cutoff && row.numResets < signedResets most,
          s.catalog.jobs.count fun _ row =>
            row.isStalled cutoff && signedResets most ≤ row.numResets⟩, { s with catalog := d }) ∧
      d.toTables = { s.catalog.toTables with
        jobs := s.catalog.jobs.map fun _ row => resetRow now cutoff (signedResets most) row } := by
  let fails (_ : Int) (row : JobRow) : Bool :=
    row.isStalled cutoff && signedResets most ≤ row.numResets
  let queues (_ : Int) (row : JobRow) : Bool :=
    row.isStalled cutoff && row.numResets < signedResets most
  let d := (s.catalog.changeJobs fails (diedRow now)).2
  have hfail := run_changeJobs hs fails (diedRow now)
  have hqueue := run_changeJobs (s := { s with catalog := d }) (hs.of_version rfl) queues requeuedRow
  have hcount : d.jobs.count queues = s.catalog.jobs.count queues :=
    (Table.count_map s.catalog.jobs _ queues).trans
      (Table.count_congr fun _ row _ => (reset_twice now cutoff (signedResets most) row).1)
  have hrows : (d.changeJobs queues requeuedRow).2.jobs =
      s.catalog.jobs.map fun _ row => resetRow now cutoff (signedResets most) row := by
    refine (Table.map_map s.catalog.jobs _ _).trans (Table.map_congr fun id row _ => ?_)
    rw [← (reset_twice now cutoff (signedResets most) row).2]
    rfl
  refine ⟨(d.changeJobs queues requeuedRow).2, ?_, ?_⟩
  · rw [← hcount]
    exact (bind_of_ok hfail).trans (bind_of_ok hqueue)
  · rw [← hrows]
    rfl

/-- A stalled job has been reset too often, and fails, or is queued again. All others stay. -/
theorem get?_resetStalled (hs : s.catalog.Complete) (now cutoff : Instant) (most : Nat) (id : Int) :
    (resetStalled now cutoff most s).2.catalog.jobs.get? id =
      (s.catalog.jobs.get? id).map fun row =>
        if row.isStalled cutoff = true then
          if signedResets most ≤ row.numResets then diedRow now row else requeuedRow row
        else row := by
  obtain ⟨d, hrun, htables⟩ := run_resetStalled hs now cutoff most
  rw [hrun]
  change d.toTables.jobs.get? id = _
  rw [htables]
  exact Table.get?_map _ _ _

def Keeping (s t : Store) : Prop :=
  t.catalog.jobs.lastId = s.catalog.jobs.lastId

instance : Chained Keeping where
  refl _ := rfl
  trans h h' := h'.trans h

theorem keeping_changeJobs (p : Int → JobRow → Bool) (f : JobRow → JobRow) :
    Within Keeping (Queue.changeJobs p f) := by
  intro s
  rcases write_cases [.jobs] (fun c => .ok (c.changeJobs p f)) s with ⟨e, hrun⟩ | ⟨n, d, hd, hrun⟩
  · unfold Queue.changeJobs
    rw [hrun]
    rfl
  · cases hd
    unfold Queue.changeJobs
    rw [hrun]
    rfl

theorem keeping_read {α : Type} (tables : List TableName) (f : Catalog → α) :
    Within Keeping (read tables f) := by
  have hrequire : Within Keeping (require tables .refusedRead) := by
    intro s
    rw [snd_require]
    rfl
  exact Within.bind hrequire fun _ => Within.bind Within.get fun _ => Within.pure _

theorem keeping_now : Within Keeping now :=
  fun _ => rfl

theorem keeping_fail (budget : Nat) (id : Int) (message : String) :
    Within Keeping (fail budget id message) := by
  have hwrite : ∀ f, Within Keeping (write [.jobs] fun c => c.changeJob id f) := by
    intro f s
    rcases write_cases [.jobs] (fun c => c.changeJob id f) s with ⟨e, hrun⟩ | ⟨u, d, hd, hrun⟩
    · rw [hrun]
      rfl
    · rw [hrun]
      unfold changeJob at hd
      split at hd
      · cases hd
        rfl
      · cases hd
  refine Within.bind (keeping_read _ _) fun seen => ?_
  cases seen with
  | none => exact Within.throw _
  | some row =>
      exact Within.bind keeping_now fun now => Within.bind (hwrite _) fun _ => Within.pure _

theorem keeping_purge (cutoff : Instant) : Within Keeping (purge cutoff) := by
  intro s
  unfold purge
  rcases write_cases [.jobs] (fun c => .ok (c.dropJobs fun _ row => row.isOld cutoff)) s with
    ⟨e, hrun⟩ | ⟨n, d, hd, hrun⟩
  · rw [hrun]
    rfl
  · cases hd
    rw [hrun]
    rfl

namespace Call

def isReport : Call → Bool
  | .complete _ | .fail _ _ _ => true
  | .enqueueDue _ | .enqueue _ | .dequeue | .heartbeat _ | .resetStalled _ _ _ | .purge _ => false

def hands (s : Store) (id : Int) : Call → Bool
  | .dequeue =>
      match (Queue.dequeue s).1 with
      | .ok (some job) => job.id == id
      | _ => false
  | _ => false

/-- No id is given out twice. -/
theorem lastId_after (hs : s.catalog.Complete) (call : Call) :
    s.catalog.jobs.lastId ≤ (call.after s).catalog.jobs.lastId := by
  cases call with
  | enqueueDue isCloud => exact (adding_enqueueDue isCloud s).lastId
  | enqueue service => exact (adding_enqueue service s).lastId
  | dequeue =>
      unfold after
      rcases dequeue_cases hs with hnone | ⟨row, job, -, -, hsome⟩
      · rw [hnone]
        exact Int.le_refl _
      · rw [hsome]
        exact Int.le_refl _
  | heartbeat id =>
      exact Int.le_of_eq (Within.bind keeping_now (fun _ =>
        Within.bind (keeping_changeJobs _ _) fun _ => Within.pure _) s).symm
  | complete id =>
      exact Int.le_of_eq (Within.bind keeping_now (fun _ =>
        Within.bind (keeping_changeJobs _ _) fun _ => Within.pure _) s).symm
  | fail budget id message => exact Int.le_of_eq (keeping_fail budget id message s).symm
  | resetStalled now cutoff most =>
      exact Int.le_of_eq (Within.bind (keeping_changeJobs _ _) (fun _ =>
        Within.bind (keeping_changeJobs _ _) fun _ => Within.pure _) s).symm
  | purge cutoff => exact Int.le_of_eq (keeping_purge cutoff s).symm

end Call

/-- What a call does to the row of a job, and whether it hands the job to a worker. -/
inductive Move (s : Store) (id : Int) : Call → Bool → Option JobRow → Option JobRow → Prop where
  | stays {call : Call} {row? : Option JobRow} : Move s id call false row? row?
  | queued {call : Call} {service : Int} {now : Instant} : s.catalog.jobs.lastId < id →
      Move s id call false none (some (.fresh service now))
  | claimed {row : JobRow} : row.isReady s.clock = true →
      Move s id .dequeue true (some row) (some (claimedRow s.clock row))
  | heard {row : JobRow} : row.state = .known .processing →
      Move s id (.heartbeat id) false (some row) (some { row with lastHeartbeatAt := some s.clock })
  | reported {row : JobRow} (report : Report) :
      Move s id (report.call id) false (some row) (some (report.mark s.clock row))
  | died {now cutoff : Instant} {most : Nat} {row : JobRow} : row.isStalled cutoff = true →
      signedResets most ≤ row.numResets →
        Move s id (.resetStalled now cutoff most) false (some row) (some (diedRow now row))
  | requeued {now cutoff : Instant} {most : Nat} {row : JobRow} : row.isStalled cutoff = true →
      row.numResets < signedResets most →
        Move s id (.resetStalled now cutoff most) false (some row) (some (requeuedRow row))
  | purged {cutoff : Instant} {row : JobRow} : row.isOld cutoff = true →
      Move s id (.purge cutoff) false (some row) none

namespace Move

variable {id : Int} {call : Call}

theorem of_adding {t : Store} (h : Adding s t) :
    Move s id call false (s.catalog.jobs.get? id) (t.catalog.jobs.get? id) := by
  rcases h.get? id with hsame | ⟨hnew, service, now, hfresh⟩
  · rw [hsame]
    exact .stays
  · rw [hfresh, Table.get?_of_lastId_lt hnew]
    exact .queued hnew

theorem of_dequeue (hs : s.catalog.Complete) (id : Int) :
    Move s id .dequeue (Call.dequeue.hands s id) (s.catalog.jobs.get? id)
      ((Call.dequeue.after s).catalog.jobs.get? id) := by
  unfold Call.hands Call.after
  rcases dequeue_cases hs with hnone | ⟨row, job, hrow, hready, hsome⟩
  · rw [hnone]
    exact .stays
  · simp only [hsome, get?_changedJobs_of_service s.catalog _ (claimedRow s.clock) fun _ => rfl,
      beq_iff_eq]
    by_cases hid : id = job.id
    · subst hid
      simp only [beq_self_eq_true, hrow, Option.map_some, if_true]
      exact .claimed hready
    · have hother : (job.id == id) = false := beq_false_of_ne (Ne.symm hid)
      simp only [hid, if_false, Option.map_id', hother]
      exact .stays

theorem of_report (hs : s.catalog.Complete) (job : Int) (report : Report) (id : Int) :
    Move s id (report.call job) false (s.catalog.jobs.get? id)
      (((report.call job).after s).catalog.jobs.get? id) := by
  rw [report.get?_after hs]
  cases s.catalog.jobs.get? id with
  | none => exact .stays
  | some row =>
      rw [Option.map_some]
      by_cases hid : id = job
      · subst hid
        rw [if_pos rfl]
        exact .reported report
      · rw [if_neg hid]
        exact .stays

end Move

/-- Every call moves every job in one of these ways. -/
theorem move (hs : s.catalog.Complete) (call : Call) (id : Int) :
    Move s id call (call.hands s id) (s.catalog.jobs.get? id)
      ((call.after s).catalog.jobs.get? id) := by
  cases call with
  | enqueueDue isCloud => exact .of_adding (adding_enqueueDue isCloud s)
  | enqueue service => exact .of_adding (adding_enqueue service s)
  | dequeue => exact .of_dequeue hs id
  | complete job => exact .of_report hs job .success id
  | fail budget job message => exact .of_report hs job (.failure budget message) id
  | heartbeat job =>
      rw [Call.after, get?_heartbeat hs]
      cases s.catalog.jobs.get? id with
      | none => exact .stays
      | some row =>
          by_cases hheard : (id == job && row.state == .known .processing) = true
          · simp only [Option.map_some, if_pos hheard]
            simp only [Bool.and_eq_true, beq_iff_eq] at hheard
            obtain ⟨rfl, hstate⟩ := hheard
            exact .heard hstate
          · simp only [Option.map_some, if_neg hheard]
            exact .stays
  | resetStalled now cutoff most =>
      rw [Call.after, get?_resetStalled hs]
      cases s.catalog.jobs.get? id with
      | none => exact .stays
      | some row =>
          rw [Option.map_some]
          by_cases hstalled : row.isStalled cutoff = true
          · rw [if_pos hstalled]
            by_cases hmost : signedResets most ≤ row.numResets
            · rw [if_pos hmost]
              exact .died hstalled hmost
            · rw [if_neg hmost]
              exact .requeued hstalled (Int.not_le.mp hmost)
          · rw [if_neg hstalled]
            exact .stays
  | purge cutoff =>
      rw [Call.after, get?_purge hs]
      cases s.catalog.jobs.get? id with
      | none => exact .stays
      | some row =>
          by_cases hold : row.isOld cutoff = true
          · simp only [Option.filter_some, hold, Bool.not_true, Bool.false_eq_true, if_false]
            exact .purged hold
          · rw [Bool.not_eq_true] at hold
            simp only [Option.filter_some, hold, Bool.not_false, if_true]
            exact .stays

end Queue

end RepoCatalog
