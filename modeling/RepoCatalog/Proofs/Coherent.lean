import RepoCatalog.Proofs.Moves

/-!
# Coherent jobs

The columns of a job's row are written by calls that look at few of them: a report does not ask who
has the job, and a reset leaves alone what it need not change. Still, along every run of calls, the
times, the failures and the resets of a job are such as its state says.
-/
namespace RepoCatalog

open Time (Instant)

/-- What the columns of a job's row say of each other where jobs may fail `budget` times and be
tried again. -/
structure JobRow.Coherent (budget : Nat) (row : JobRow) : Prop where
  known : ∃ state, row.state = .known state
  queued : row.state = .known .queued → row.startedAt = none ∧ row.finishedAt = none
  processing : row.state = .known .processing →
    row.startedAt.isSome ∧ row.lastHeartbeatAt.isSome ∧ row.finishedAt = none
  ended : row.state = .known .completed ∨ row.state = .known .errored ∨
    row.state = .known .failed → row.finishedAt.isSome
  failures : 0 ≤ row.numFailures
  inFlight : row.state.satisfies JobState.isInFlight = true → row.numFailures ≤ budget
  errored : row.state = .known .errored → 1 ≤ row.numFailures ∧ row.failureMessage.isSome

namespace Queue

open Store Catalog

variable {s : Store} {log : List (Store × Call)}

/-- The calls that have led from an empty queue to a store, the last one first, each with the store
on which it was made. In between, anything but the jobs may change. -/
inductive Run : List (Store × Call) → Store → Prop where
  | start {s : Store} : s.catalog.jobs.toList = [] → s.catalog.Complete → Run [] s
  | elsewhere {log : List (Store × Call)} {s t : Store} : Run log s →
      t.catalog.jobs = s.catalog.jobs → t.catalog.Complete → Run log t
  | call {log : List (Store × Call)} {s : Store} (call : Call) : Run log s →
      Run ((s, call) :: log) (call.after s)

namespace Run

theorem complete (h : Run log s) : s.catalog.Complete := by
  induction h with
  | start _ hs => exact hs
  | elsewhere _ _ ht _ => exact ht
  | call call _ ih => exact ih.of_version (call.version_after ih)

/-- What every move keeps of the rows of jobs holds of all jobs all along. -/
theorem forall_rows {P : JobRow → Prop} {Q : Call → Prop}
    (hkept : ∀ {s : Store} {id : Int} {call : Call} {handed : Bool} {row? row?' : Option JobRow},
      Q call → Move s id call handed row? row?' → (∀ row ∈ row?, P row) → ∀ row ∈ row?', P row)
    (h : Run log s) (hlog : ∀ e ∈ log, Q e.2) (id : Int) : ∀ row ∈ s.catalog.jobs.get? id, P row := by
  induction h with
  | start hempty _ =>
      intro row hrow
      rw [Table.get?_of_toList_nil hempty] at hrow
      cases hrow
  | elsewhere _ hjobs _ ih =>
      rw [hjobs]
      exact ih hlog
  | call call hrun ih =>
      obtain ⟨hcall, hrest⟩ := List.forall_mem_cons.mp hlog
      exact hkept hcall (move hrun.complete call id) (ih hrest)

/-- The log and the store of calls that are made in turn. -/
def play (s : Store) (calls : List Call) : List (Store × Call) × Store :=
  calls.foldl (fun h call => ((h.2, call) :: h.1, call.after h.2)) ([], s)

theorem of_play (hempty : s.catalog.jobs.toList = []) (hs : s.catalog.Complete)
    (calls : List Call) : Run (play s calls).1 (play s calls).2 := by
  refine List.foldlRecOn (motive := fun h : List (Store × Call) × Store => Run h.1 h.2) calls _ ?_ ?_
  · exact .start hempty hs
  · exact fun _ h call _ => .call call h

end Run

namespace Call

/-- How many failures a report that is made by this call allows. -/
def budget? : Call → Option Nat
  | .fail budget _ _ => some budget
  | _ => none

/-- How many resets this call allows. -/
def most? : Call → Option Nat
  | .resetStalled _ _ most => some most
  | _ => none

end Call

/-- The most resets that a call of a run has allowed, none if there was no reset. -/
def mostResets (log : List (Store × Call)) : Nat :=
  (log.filterMap fun e => e.2.most?).max?.getD 0

theorem le_mostResets {e : Store × Call} (he : e ∈ log) : ∀ most ∈ e.2.most?, most ≤ mostResets log :=
  fun _ hmost => List.le_max?_getD_of_mem (List.mem_filterMap.mpr ⟨e, he, hmost⟩)

section
variable {budget : Nat} {row : JobRow} {now : Instant}

theorem processing_of_stalled (h : row.isStalled now = true) : row.state = .known .processing := by
  unfold JobRow.isStalled at h
  rw [Bool.and_eq_true, beq_iff_eq] at h
  exact h.1

theorem coherent_fresh (budget : Nat) (service : Int) (now : Instant) :
    (JobRow.fresh service now).Coherent budget where
  known := ⟨_, rfl⟩
  queued _ := ⟨rfl, rfl⟩
  processing h := by cases h
  ended h := by rcases h with h | h | h <;> cases h
  failures := Int.le_refl 0
  inFlight _ := Int.natCast_nonneg budget
  errored h := by cases h

theorem coherent_claimed (h : row.Coherent budget) (hready : row.isReady now = true) :
    (claimedRow now row).Coherent budget where
  known := ⟨_, rfl⟩
  queued h := by cases h
  processing _ := ⟨rfl, rfl, rfl⟩
  ended h := by rcases h with h | h | h <;> cases h
  failures := h.failures
  inFlight _ := h.inFlight (inFlight_of_ready hready)
  errored h := by cases h

theorem coherent_heard (h : row.Coherent budget) :
    { row with lastHeartbeatAt := some now }.Coherent budget where
  known := h.known
  queued := h.queued
  processing hstate := ⟨(h.processing hstate).1, rfl, (h.processing hstate).2.2⟩
  ended := h.ended
  failures := h.failures
  inFlight := h.inFlight
  errored := h.errored

/-- A report is heeded whatever the state of the job: it brings all that its state asks for. -/
theorem coherent_reported (h : row.Coherent budget) (report : Report)
    (hbudget : ∀ b ∈ (report.call 0).budget?, b = budget) :
    (report.mark now row).Coherent budget := by
  cases report with
  | success =>
      exact {
        known := ⟨_, rfl⟩
        queued := fun h => by cases h
        processing := fun h => by cases h
        ended := fun _ => rfl
        failures := h.failures
        inFlight := fun h => by cases h
        errored := fun h => by cases h }
  | failure b message =>
      obtain rfl : b = budget := hbudget b rfl
      have hcount : (0 : Int) ≤ row.numFailures + 1 := Int.le_add_one h.failures
      by_cases hspent : (b : Int) < row.numFailures + 1
      · have hstate : ((Report.failure b message).mark now row).state = .known .failed := by
          simp only [Report.mark, if_pos hspent]
        exact {
          known := ⟨_, rfl⟩
          queued := fun h => by rw [hstate] at h; cases h
          processing := fun h => by rw [hstate] at h; cases h
          ended := fun _ => rfl
          failures := hcount
          inFlight := fun h => by rw [hstate] at h; cases h
          errored := fun h => by rw [hstate] at h; cases h }
      · have hstate : ((Report.failure b message).mark now row).state = .known .errored := by
          simp only [Report.mark, if_neg hspent]
        exact {
          known := ⟨_, rfl⟩
          queued := fun h => by rw [hstate] at h; cases h
          processing := fun h => by rw [hstate] at h; cases h
          ended := fun _ => rfl
          failures := hcount
          inFlight := fun _ => Int.not_lt.mp hspent
          errored := fun _ => ⟨Int.le_add_of_nonneg_left h.failures, rfl⟩ }

theorem coherent_died (h : row.Coherent budget) : (diedRow now row).Coherent budget where
  known := ⟨_, rfl⟩
  queued h := by cases h
  processing h := by cases h
  ended _ := rfl
  failures := h.failures
  inFlight h := by cases h
  errored h := by cases h

/-- A job that is queued again was being processed, so nobody has said that it was finished. -/
theorem coherent_requeued (h : row.Coherent budget) (hstate : row.state = .known .processing) :
    (requeuedRow row).Coherent budget where
  known := ⟨_, rfl⟩
  queued _ := ⟨rfl, (h.processing hstate).2.2⟩
  processing h := by cases h
  ended h := by rcases h with h | h | h <;> cases h
  failures := h.failures
  inFlight _ := h.inFlight (by rw [hstate]; rfl)
  errored h := by cases h

end

theorem signedResets_le (most : Nat) : signedResets most ≤ most := by
  have hpow : ((Nat.pow 2 32 : Nat) : Int) = 4294967296 := rfl
  have hmost : Int.ofNat most = (most : Int) := rfl
  unfold signedResets
  rw [Int.bmod_def, hpow, hmost]
  split
  · omega
  · omega

theorem forall_mem_some {α : Type} {P : α → Prop} {a : α} : (∀ b ∈ some a, P b) ↔ P a := by
  simp only [Option.mem_some_iff, forall_eq']

namespace Move

variable {id : Int} {call : Call} {handed : Bool} {row? row?' : Option JobRow}

theorem coherent {budget : Nat} (hbudget : ∀ b ∈ call.budget?, b = budget)
    (h : Move s id call handed row? row?') (hrow : ∀ row ∈ row?, row.Coherent budget) :
    ∀ row ∈ row?', row.Coherent budget := by
  cases h with
  | stays => exact hrow
  | queued _ => exact forall_mem_some.mpr (coherent_fresh budget _ _)
  | claimed hready => exact forall_mem_some.mpr (coherent_claimed (hrow _ rfl) hready)
  | heard _ => exact forall_mem_some.mpr (coherent_heard (hrow _ rfl))
  | died _ _ => exact forall_mem_some.mpr (coherent_died (hrow _ rfl))
  | requeued hstalled _ =>
      exact forall_mem_some.mpr (coherent_requeued (hrow _ rfl) (processing_of_stalled hstalled))
  | purged _ => exact fun _ h => by cases h
  | reported report =>
      refine forall_mem_some.mpr (coherent_reported (hrow _ rfl) report ?_)
      cases report with
      | success => exact hbudget
      | failure b message => exact hbudget

theorem numResets {most : Nat} (hmost : ∀ m ∈ call.most?, m ≤ most)
    (h : Move s id call handed row? row?') (hrow : ∀ row ∈ row?, row.numResets ≤ most) :
    ∀ row ∈ row?', row.numResets ≤ most := by
  cases h with
  | stays => exact hrow
  | queued _ => exact forall_mem_some.mpr (Int.natCast_nonneg most)
  | @claimed row _ => exact forall_mem_some.mpr (hrow row rfl)
  | @heard row _ => exact forall_mem_some.mpr (hrow row rfl)
  | @died _ _ _ row _ _ => exact forall_mem_some.mpr (hrow row rfl)
  | purged _ => exact fun _ h => by cases h
  | @reported row report =>
      refine forall_mem_some.mpr ?_
      cases report with
      | success => exact hrow row rfl
      | failure b message => exact hrow row rfl
  | @requeued _ _ m row _ hleft =>
      refine forall_mem_some.mpr ?_
      have hallowed : (m : Int) ≤ most := Int.ofNat_le.mpr (hmost m rfl)
      have hsigned := signedResets_le m
      change row.numResets + 1 ≤ most
      omega

end Move

/-- In every state of a queue the rows of jobs are coherent, and no job was reset more often than
any call allowed. -/
theorem rows_coherent {budget : Nat} (h : Run log s)
    (hbudget : ∀ e ∈ log, ∀ b ∈ e.2.budget?, b = budget) {id : Int} {row : JobRow}
    (hrow : s.catalog.jobs.get? id = some row) :
    row.Coherent budget ∧ row.numResets ≤ mostResets log := by
  constructor
  · exact h.forall_rows (fun hcall hmove => hmove.coherent hcall) hbudget id row hrow
  · exact h.forall_rows (fun hcall hmove => hmove.numResets hcall) (fun _ he => le_mostResets he) id
      row hrow

theorem rows_coherent_after_reset_and_failure :
    let h := Run.play Sample.idle [.enqueue 1, .dequeue, .resetStalled ⟨0⟩ ⟨1000000000⟩ 2, .dequeue,
      .fail 1 1 "boom"]
    ∃ row, h.2.catalog.jobs.get? 1 = some row ∧ row.state = .known .errored ∧ row.numResets = 1 ∧
      row.Coherent 1 ∧ row.numResets ≤ mostResets h.1 := by
  intro h
  have hrun : Run h.1 h.2 := Run.of_play rfl Sample.complete_idle _
  have hbudget : ∀ e ∈ h.1, ∀ b ∈ e.2.budget?, b = 1 := by decide +kernel
  have hseen : ∃ row ∈ h.2.catalog.jobs.get? 1, row.state = .known .errored ∧ row.numResets = 1 := by
    decide +kernel
  obtain ⟨row, hrow, hstate, hresets⟩ := hseen
  exact ⟨row, hrow, hstate, hresets, rows_coherent hrun hbudget hrow⟩

end Queue

end RepoCatalog
