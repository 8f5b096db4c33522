import RepoCatalog.Proofs.Moves

/-!
# Late reports

A worker holds the job that it has claimed until it reports how the job ended. If it stays silent
for too long, the job is taken from it, to go to the next worker or to fail. A report names nothing
but the job, and the queue heeds it whoever has the job by then. So a worker that has lost its hold
changes the job if and only if the job is still there when its report comes.
-/
namespace RepoCatalog

open Step
open Time (Instant)

namespace Catalog

/-- A job of this id has come to its end. -/
def HasEnded (c : Catalog) (id : Int) : Prop :=
  ∃ row, c.jobs.get? id = some row ∧ (row.state = .known .completed ∨ row.state = .known .failed)

/-- A job of this id is to be worked off, now or again. -/
def IsRunnable (c : Catalog) (id : Int) : Prop :=
  ∃ row, c.jobs.get? id = some row ∧ row.state.satisfies JobState.isInFlight = true

end Catalog

namespace Queue

open Store Catalog

variable {s : Store}

namespace Report

/-- A success is reported at the very time at which the job was completed. -/
def Repeats (now : Instant) (row : JobRow) : Report → Prop
  | .success => row.state = .known .completed ∧ row.finishedAt = some now
  | .failure _ _ => False

instance (now : Instant) (row : JobRow) (report : Report) : Decidable (report.Repeats now row) :=
  match report with
  | .success => inferInstanceAs (Decidable (row.state = .known .completed ∧
      row.finishedAt = some now))
  | .failure _ _ => isFalse id

theorem mark_eq_self_iff {now : Instant} {row : JobRow} (report : Report) :
    report.mark now row = row ↔ report.Repeats now row := by
  cases report with
  | success =>
      constructor
      · intro h
        exact ⟨(congrArg JobRow.state h).symm, (congrArg JobRow.finishedAt h).symm⟩
      · rintro ⟨hstate, hfinished⟩
        cases row
        cases hstate
        cases hfinished
        rfl
  | failure budget message =>
      refine iff_of_false (fun h => ?_) id
      have hcount : row.numFailures + 1 = row.numFailures := congrArg JobRow.numFailures h
      omega

end Report

/-- What a call that reports nothing does to a job: it leaves its state as it is, or the job is
claimed, taken from its worker or forgotten. -/
inductive Fate (s : Store) (row : JobRow) : Call → Option JobRow → Prop where
  | stays {call : Call} {row' : JobRow} : row'.state = row.state → Fate s row call (some row')
  | claimed {row' : JobRow} : row.isReady s.clock = true → Fate s row .dequeue (some row')
  | reset {now cutoff : Instant} {most : Nat} {row' : JobRow} : row.isStalled cutoff = true →
      Fate s row (.resetStalled now cutoff most) (some row')
  | purged {cutoff : Instant} : row.isOld cutoff = true → Fate s row (.purge cutoff) none

theorem fate (hs : s.catalog.Complete) {call : Call} (hcall : call.isReport = false) {id : Int}
    {row : JobRow} (hrow : s.catalog.jobs.get? id = some row) :
    Fate s row call ((call.after s).catalog.jobs.get? id) := by
  have hmove := move hs call id
  rw [hrow] at hmove
  generalize call.hands s id = handed at hmove
  generalize (call.after s).catalog.jobs.get? id = row? at hmove ⊢
  cases hmove with
  | stays => exact .stays rfl
  | claimed hready => exact .claimed hready
  | heard _ => exact .stays rfl
  | died hstalled _ => exact .reset hstalled
  | requeued hstalled _ => exact .reset hstalled
  | purged hold => exact .purged hold
  | reported report =>
      cases report with
      | success => cases hcall
      | failure budget message => cases hcall

/-- The hold of a worker on a job that it has claimed and not reported yet. -/
structure Hold where
  job : Int
  /-- Whether the job has been taken from the worker since. -/
  isLost : Bool
deriving DecidableEq

/-- The holds of the workers after a call that is not a report. -/
def Call.holds (s : Store) (holds : List Hold) : Call → List Hold
  | .dequeue =>
      match (Queue.dequeue s).1 with
      | .ok (some job) => ⟨job.id, false⟩ :: holds
      | _ => holds
  | .resetStalled _ cutoff _ => holds.map fun hold =>
      { hold with
        isLost := hold.isLost || (s.catalog.jobs.get? hold.job).any (·.isStalled cutoff) }
  | _ => holds

/-- Every job that a worker has and did not lose is being processed, by that worker alone. -/
structure Manned (holds : List Hold) (c : Catalog) : Prop where
  processing : ∀ hold ∈ holds, hold.isLost = false →
    ∃ row, c.jobs.get? hold.job = some row ∧ row.state = .known .processing
  apart : holds.Pairwise fun a b => a.isLost = false → b.isLost = false → a.job ≠ b.job

namespace Manned

variable {holds : List Hold}

theorem not_ready {row : JobRow} (h : row.state = .known .processing) (now : Instant) :
    row.isReady now = false := by
  unfold JobRow.isReady
  rw [h]
  rfl

theorem not_old {row : JobRow} (h : row.state = .known .processing) (cutoff : Instant) :
    row.isOld cutoff = false := by
  unfold JobRow.isOld
  rw [h]
  rfl

/-- A job that is being processed stays so under all calls but a reset that finds it stalled. -/
theorem processing_after (hs : s.catalog.Complete) {call : Call} (hcall : call.isReport = false)
    {id : Int} {row : JobRow} (hrow : s.catalog.jobs.get? id = some row)
    (hstate : row.state = .known .processing)
    (hreset : ∀ now cutoff most, call = .resetStalled now cutoff most →
      row.isStalled cutoff = false) :
    ∃ row', (call.after s).catalog.jobs.get? id = some row' ∧
      row'.state = .known .processing := by
  have hfate := fate hs hcall hrow
  generalize hafter : (call.after s).catalog.jobs.get? id = after at hfate
  cases hfate with
  | stays hsame => exact ⟨_, rfl, hsame.trans hstate⟩
  | claimed hready =>
      rw [not_ready hstate] at hready
      cases hready
  | reset hstalled =>
      rw [hreset _ _ _ rfl] at hstalled
      cases hstalled
  | purged hold =>
      rw [not_old hstate] at hold
      cases hold

theorem after (hs : s.catalog.Complete) (h : Manned holds s.catalog) {call : Call}
    (hcall : call.isReport = false)
    (hreset : ∀ now cutoff most, call ≠ .resetStalled now cutoff most) :
    Manned holds (call.after s).catalog := by
  refine ⟨fun hold hmem hheld => ?_, h.apart⟩
  obtain ⟨row, hrow, hstate⟩ := h.processing hold hmem hheld
  exact processing_after hs hcall hrow hstate fun now cutoff most heq =>
    absurd heq (hreset now cutoff most)

theorem call (hs : s.catalog.Complete) (h : Manned holds s.catalog) {call : Call}
    (hcall : call.isReport = false) :
    Manned (call.holds s holds) (call.after s).catalog := by
  cases call with
  | complete job => cases hcall
  | fail budget job message => cases hcall
  | enqueueDue isCloud => exact h.after hs hcall fun _ _ _ h => by cases h
  | enqueue service => exact h.after hs hcall fun _ _ _ h => by cases h
  | heartbeat job => exact h.after hs hcall fun _ _ _ h => by cases h
  | purge cutoff => exact h.after hs hcall fun _ _ _ h => by cases h
  | dequeue =>
      have hkept : Manned holds (Call.dequeue.after s).catalog :=
        h.after hs hcall fun _ _ _ h => by cases h
      rcases dequeue_cases hs with hnone | ⟨row, job, hrow, hready, hsome⟩
      · simp only [Call.holds, hnone]
        exact hkept
      · simp only [Call.holds, hsome]
        refine ⟨?_, List.pairwise_cons.mpr ⟨fun hold hmem _ hheld => ?_, h.apart⟩⟩
        · intro hold hmem hheld
          rcases List.mem_cons.mp hmem with rfl | hmem
          · refine ⟨claimedRow s.clock row, ?_, rfl⟩
            simp only [Call.after, hsome, get?_changedJobs, hrow, Option.map_some, beq_self_eq_true,
              if_true]
            rfl
          · exact hkept.processing hold hmem hheld
        · intro hsame
          obtain ⟨old, hold, hstate⟩ := h.processing hold hmem hheld
          cases hrow.symm.trans ((congrArg s.catalog.jobs.get? hsame).trans hold)
          rw [not_ready hstate] at hready
          cases hready
  | resetStalled now cutoff most =>
      refine ⟨?_, List.pairwise_map.mpr (h.apart.imp fun hne ha hb => ?_)⟩
      · intro new hmem hheld
        obtain ⟨hold, hold_mem, rfl⟩ := List.mem_map.mp hmem
        obtain ⟨hheld, hfresh⟩ := Bool.or_eq_false_iff.mp hheld
        obtain ⟨row, hrow, hstate⟩ := h.processing hold hold_mem hheld
        rw [hrow] at hfresh
        refine processing_after hs hcall hrow hstate fun _ _ _ heq => ?_
        cases heq
        exact hfresh
      · exact hne (Bool.or_eq_false_iff.mp ha).1 (Bool.or_eq_false_iff.mp hb).1

theorem report (hs : s.catalog.Complete) (h : Manned holds s.catalog) {hold : Hold}
    (hmem : hold ∈ holds) (hheld : hold.isLost = false) (report : Report) :
    Manned (holds.erase hold) ((report.call hold.job).after s).catalog := by
  have hsymm : Std.Symm fun a b : Hold => a.isLost = false → b.isLost = false → a.job ≠ b.job :=
    ⟨fun a b hab hb ha => (hab ha hb).symm⟩
  have hperm := List.perm_cons_erase hmem
  obtain ⟨hothers, hapart⟩ := List.pairwise_cons.mp ((hperm.pairwise_iff (hsymm.symm _ _)).mp h.apart)
  refine ⟨fun other hother hheld' => ?_, hapart⟩
  obtain ⟨row, hrow, hstate⟩ := h.processing other (List.mem_of_mem_erase hother) hheld'
  refine ⟨row, ?_, hstate⟩
  have hne := (hothers other hother hheld hheld').symm
  rw [report.get?_after hs, hrow, Option.map_some, if_neg hne]

end Manned

/-- What happens at a queue: a worker reports the job that it had claimed, or some call is made that
is not a report. -/
inductive Deed where
  | call (before : Store) (call : Call)
  | report (before : Store) (hold : Hold) (report : Report)

namespace Deed

def before : Deed → Store
  | .call s _ | .report s _ _ => s

def after : Deed → Store
  | .call s c => c.after s
  | .report s hold r => (r.call hold.job).after s

/-- A worker that has lost its hold on a job leaves the job as it was. -/
def RespectsLoss : Deed → Prop
  | .call _ _ => True
  | .report s hold r => hold.isLost = true →
      ((r.call hold.job).after s).catalog.jobs.get? hold.job = s.catalog.jobs.get? hold.job

/-- A job that has come to its end is not to be worked off again. -/
def KeepsEnds (e : Deed) : Prop :=
  ∀ id, e.before.catalog.HasEnded id → ¬e.after.catalog.IsRunnable id

/-- A worker that has lost its hold reports a job that is still there, other than its success at the
very time at which the job was completed. -/
def Meddles : Deed → Prop
  | .call _ _ => False
  | .report s hold r => hold.isLost = true ∧
      ∃ row, s.catalog.jobs.get? hold.job = some row ∧ ¬r.Repeats s.clock row

instance (e : Deed) : Decidable e.Meddles :=
  match e with
  | .call _ _ => isFalse id
  | .report s hold r => inferInstanceAs (Decidable (hold.isLost = true ∧
      ∃ row ∈ s.catalog.jobs.get? hold.job, ¬r.Repeats s.clock row))

theorem respectsLoss_report_iff {hold : Hold} {r : Report} (hs : s.catalog.Complete) :
    (Deed.report s hold r).RespectsLoss ↔ ¬(Deed.report s hold r).Meddles := by
  simp only [RespectsLoss, Meddles, not_and, not_exists, not_not]
  refine forall_congr' fun _ => ?_
  rw [r.get?_after hs]
  cases s.catalog.jobs.get? hold.job with
  | none => simp
  | some row =>
      simp only [Option.map_some, if_true, Option.some.injEq, forall_eq',
        Report.mark_eq_self_iff]

theorem respectsLoss_iff {e : Deed} (hs : e.before.catalog.Complete) :
    e.RespectsLoss ↔ ¬e.Meddles := by
  cases e with
  | call s c => exact iff_of_true trivial id
  | report s hold r => exact respectsLoss_report_iff hs

end Deed

/-- What has led from an empty queue to a store, the last deed first, with the holds that workers
then have. In between, anything but the jobs may change. -/
inductive Shift : List Hold → List Deed → Store → Prop where
  | start {s : Store} : s.catalog.jobs.toList = [] → s.catalog.Complete → Shift [] [] s
  | elsewhere {holds : List Hold} {log : List Deed} {s t : Store} : Shift holds log s →
      t.catalog.jobs = s.catalog.jobs → t.catalog.Complete → Shift holds log t
  | call {holds : List Hold} {log : List Deed} {s : Store} (call : Call) :
      call.isReport = false → Shift holds log s →
        Shift (call.holds s holds) (.call s call :: log) (call.after s)
  | report {holds : List Hold} {log : List Deed} {s : Store} (hold : Hold) (report : Report) :
      hold ∈ holds → Shift holds log s →
        Shift (holds.erase hold) (.report s hold report :: log) ((report.call hold.job).after s)

namespace Shift

variable {holds : List Hold} {log : List Deed}

theorem complete (h : Shift holds log s) : s.catalog.Complete := by
  induction h with
  | start _ hs => exact hs
  | elsewhere _ _ ht _ => exact ht
  | call call _ _ ih => exact ih.of_version (call.version_after ih)
  | report hold report _ _ ih => exact ih.of_version ((report.call hold.job).version_after ih)

theorem before_complete (h : Shift holds log s) : ∀ e ∈ log, e.before.catalog.Complete := by
  induction h with
  | start _ _ => exact fun e he => by cases he
  | elsewhere _ _ _ ih => exact ih
  | call call _ h ih => exact List.forall_mem_cons.mpr ⟨h.complete, ih⟩
  | report hold report _ h ih => exact List.forall_mem_cons.mpr ⟨h.complete, ih⟩

end Shift

/-- A shift so far. -/
structure Course where
  holds : List Hold
  log : List Deed
  store : Store

/-- A shift with one call or report more. A call that is to be none of a worker, and a report for
which no worker has the hold, do not happen. -/
def Course.next (h : Course) : Call ⊕ (Hold × Report) → Course
  | .inl c =>
      if c.isReport then h
      else ⟨c.holds h.store h.holds, .call h.store c :: h.log, c.after h.store⟩
  | .inr (hold, r) =>
      if hold ∈ h.holds then
        ⟨h.holds.erase hold, .report h.store hold r :: h.log, (r.call hold.job).after h.store⟩
      else h

def work (s : Store) (turns : List (Call ⊕ (Hold × Report))) : Course :=
  turns.foldl Course.next ⟨[], [], s⟩

theorem Shift.next {h : Course} (hshift : Shift h.holds h.log h.store)
    (turn : Call ⊕ (Hold × Report)) :
    Shift (h.next turn).holds (h.next turn).log (h.next turn).store := by
  cases turn with
  | inl c =>
      unfold Course.next
      by_cases hc : c.isReport = true
      · simp only [if_pos hc]
        exact hshift
      · simp only [if_neg hc]
        exact hshift.call c (Bool.eq_false_iff.mpr hc)
  | inr told =>
      unfold Course.next
      by_cases hmem : told.1 ∈ h.holds
      · simp only [if_pos hmem]
        exact hshift.report told.1 told.2 hmem
      · simp only [if_neg hmem]
        exact hshift

theorem shift_work (hempty : s.catalog.jobs.toList = []) (hs : s.catalog.Complete)
    (turns : List (Call ⊕ (Hold × Report))) :
    Shift (work s turns).holds (work s turns).log (work s turns).store :=
  List.foldlRecOn (motive := fun h : Course => Shift h.holds h.log h.store) turns _
    (.start hempty hs) fun _ hshift turn _ => hshift.next turn

theorem not_inFlight_of_ended {row : JobRow}
    (h : row.state = .known .completed ∨ row.state = .known .failed) :
    ¬row.state.satisfies JobState.isInFlight = true := by
  rcases h with h | h
  · rw [h]
    exact Bool.false_ne_true
  · rw [h]
    exact Bool.false_ne_true

theorem keepsEnds_call (hs : s.catalog.Complete) {call : Call} (hcall : call.isReport = false) :
    (Deed.call s call).KeepsEnds := by
  rintro id ⟨row, hrow, hended⟩ ⟨row', hrow', hrunnable⟩
  have hstill := not_inFlight_of_ended hended
  have hfate := fate hs hcall hrow
  have hafter : (call.after s).catalog.jobs.get? id = some row' := hrow'
  rw [hafter] at hfate
  cases hfate with
  | stays hsame => exact hstill (hsame ▸ hrunnable)
  | claimed hready => exact hstill (inFlight_of_ready hready)
  | reset hstalled => exact hstill (inFlight_of_stalled hstalled)

theorem keepsEnds_of_same {e : Deed}
    (h : ∀ id row, e.before.catalog.jobs.get? id = some row → e.before.catalog.HasEnded id →
      e.after.catalog.jobs.get? id = some row) : e.KeepsEnds := by
  rintro id ⟨row, hrow, hended⟩ ⟨row', hrow', hrunnable⟩
  cases (h id row hrow ⟨row, hrow, hended⟩).symm.trans hrow'
  exact not_inFlight_of_ended hended hrunnable

/-- As long as no worker meddles, every job that a worker still has is in its hands alone, and ends
are kept: no report but a late one can then be about a job that has ended. -/
theorem manned_of_no_meddling {holds : List Hold} {log : List Deed} (h : Shift holds log s)
    (hnone : ∀ e ∈ log, ¬e.Meddles) :
    Manned holds s.catalog ∧ ∀ e ∈ log, e.KeepsEnds := by
  induction h with
  | start hempty _ =>
      exact ⟨⟨fun hold hmem => (by cases hmem), .nil⟩, fun e he => (by cases he)⟩
  | elsewhere _ hjobs _ ih =>
      obtain ⟨hmanned, hends⟩ := ih hnone
      exact ⟨⟨hjobs ▸ hmanned.processing, hmanned.apart⟩, hends⟩
  | call call hcall h ih =>
      obtain ⟨-, hrest⟩ := List.forall_mem_cons.mp hnone
      obtain ⟨hmanned, hends⟩ := ih hrest
      exact ⟨hmanned.call h.complete hcall,
        List.forall_mem_cons.mpr ⟨keepsEnds_call h.complete hcall, hends⟩⟩
  | @report holds log s hold report hmem h ih =>
      obtain ⟨hfirst, hrest⟩ := List.forall_mem_cons.mp hnone
      obtain ⟨hmanned, hends⟩ := ih hrest
      have hafter := report.get?_after h.complete hold.job
      cases hlost : hold.isLost with
      | false =>
          obtain ⟨row, hrow, hstate⟩ := hmanned.processing hold hmem hlost
          refine ⟨hmanned.report h.complete hmem hlost report,
            List.forall_mem_cons.mpr ⟨keepsEnds_of_same fun id old hold' hended => ?_, hends⟩⟩
          have hne : id ≠ hold.job := by
            rintro rfl
            obtain ⟨ended, hget, hended⟩ := hended
            cases hrow.symm.trans hget
            rw [hstate] at hended
            rcases hended with hended | hended
            · cases hended
            · cases hended
          have hbefore : s.catalog.jobs.get? id = some old := hold'
          refine (hafter id).trans ?_
          rw [hbefore, Option.map_some, if_neg hne]
      | true =>
          have hsame : ∀ id, ((report.call hold.job).after s).catalog.jobs.get? id =
              s.catalog.jobs.get? id := by
            intro id
            by_cases hid : id = hold.job
            · subst hid
              exact (Deed.respectsLoss_report_iff h.complete).mpr hfirst hlost
            · rw [hafter id]
              simp only [if_neg hid, Option.map_id']
          refine ⟨⟨fun other hother hheld => ?_, ?_⟩,
            List.forall_mem_cons.mpr ⟨keepsEnds_of_same fun id old hold' _ => ?_, hends⟩⟩
          · rw [hsame]
            exact hmanned.processing other (List.mem_of_mem_erase hother) hheld
          · exact hmanned.apart.sublist List.erase_sublist
          · exact (hsame id).trans hold'

/-- Over a whole shift, workers that have lost their hold leave their jobs as they are, and no job
that has ended is to be worked off again, if and only if no worker reports a job that is still there
after it has lost its hold on it. -/
theorem losses_respected_iff {holds : List Hold} {log : List Deed} (h : Shift holds log s) :
    ((∀ e ∈ log, e.RespectsLoss) ∧ ∀ e ∈ log, e.KeepsEnds) ↔ ∀ e ∈ log, ¬e.Meddles := by
  have hcomplete := h.before_complete
  constructor
  · rintro ⟨hrespects, -⟩ e he
    exact (Deed.respectsLoss_iff (hcomplete e he)).mp (hrespects e he)
  · intro hnone
    exact ⟨fun e he => (Deed.respectsLoss_iff (hcomplete e he)).mpr (hnone e he),
      (manned_of_no_meddling h hnone).2⟩

theorem losses_respected_iff_forgotten :
    let h := work Sample.idle [.inl (.enqueue 1), .inl .dequeue,
      .inl (.resetStalled ⟨0⟩ ⟨1000000000⟩ 1), .inl .dequeue, .inr (⟨1, false⟩, .success),
      .inl (.purge ⟨1000000000⟩), .inr (⟨1, true⟩, .success)]
    Shift h.holds h.log h.store ∧ h.log.length = 7 ∧
      (∀ e ∈ h.log, e.RespectsLoss) ∧ ∀ e ∈ h.log, e.KeepsEnds := by
  intro h
  have hshift : Shift h.holds h.log h.store := shift_work rfl Sample.complete_idle _
  have hnone : ∀ e ∈ h.log, ¬e.Meddles := by decide
  exact ⟨hshift, by decide, (losses_respected_iff hshift).mpr hnone⟩

/-- A worker loses its job to another one and then reports its success: the job is completed while
the other one works on it. When that one reports a failure, the completed job is to be tried again. -/
theorem lost_job_completed_and_revived :
    let h := work Sample.idle [.inl (.enqueue 1), .inl .dequeue,
      .inl (.resetStalled ⟨0⟩ ⟨1000000000⟩ 1), .inl .dequeue, .inr (⟨1, true⟩, .success)]
    let h' := h.next (.inr (⟨1, false⟩, .failure 1 "boom"))
    Shift h.holds h.log h.store ∧ Shift h'.holds h'.log h'.store ∧
      h.holds = [⟨1, false⟩] ∧ (∃ e ∈ h.log, ¬e.RespectsLoss) ∧ (∃ e ∈ h'.log, ¬e.KeepsEnds) ∧
      (∃ row ∈ h.store.catalog.jobs.get? 1, row.state = .known .completed) ∧
      ∃ row ∈ h'.store.catalog.jobs.get? 1, row.state = .known .errored := by
  intro h h'
  have hshift : Shift h.holds h.log h.store := shift_work rfl Sample.complete_idle _
  have hmeddles : ∃ e ∈ h.log, e.Meddles := by decide
  have hcompleted : ∃ row ∈ h.store.catalog.jobs.get? 1, row.state = .known .completed := by
    decide
  have herrored : ∃ row ∈ h'.store.catalog.jobs.get? 1, row.state = .known .errored := by
    decide
  refine ⟨hshift, hshift.next _, by decide, ?_, ?_, hcompleted, herrored⟩
  · obtain ⟨e, he, hmeddling⟩ := hmeddles
    exact ⟨e, he, fun hrespects =>
      (Deed.respectsLoss_iff (hshift.before_complete e he)).mp hrespects hmeddling⟩
  · refine ⟨.report h.store ⟨1, false⟩ (.failure 1 "boom"), List.mem_cons_self, fun hkeeps => ?_⟩
    obtain ⟨row, hrow, hstate⟩ := hcompleted
    obtain ⟨row', hrow', hstate'⟩ := herrored
    exact hkeeps 1 ⟨row, hrow, .inl hstate⟩ ⟨row', hrow', by rw [hstate']; rfl⟩

end Queue

end RepoCatalog
