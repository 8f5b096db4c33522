import RepoCatalog.Proofs.FirstJob
import RepoCatalog.Proofs.Moves
import RepoCatalog.Worker

/-!
# Budgets of resets

A job whose worker fell silent is queued again until it has been reset as often as the budget
allows, and then it fails. The two changes by which a reset does this split the silent jobs between
them, as far as values are read as what they are: the budget is a number without a sign that is
compared as a signed one of 32 bits, and times compare as the texts that are stored for them.
-/
namespace RepoCatalog

open Step
open Time (Duration Instant)

namespace JobRow

/-- Whether the job is being processed and gave no sign of life since the cutoff, by the order of
time. -/
def isSilent (row : JobRow) (cutoff : Instant) : Bool :=
  row.state == .known .processing && row.lastHeartbeatAt.all fun t => t < cutoff

/-- Whether a signed budget is negative, so that it finds the job to have been reset too often
although it is inside the budget. -/
def IsOverdrawn (row : JobRow) (most : Nat) : Prop :=
  2 ^ 31 ≤ most ∧ (most : Int) - (2 ^ 32 : Nat) ≤ row.numResets ∧ row.numResets < most

/-- Whether the job's last sign of life is misread, or its budget is. -/
def IsMisjudged (row : JobRow) (cutoff : Instant) (most : Nat) : Prop :=
  row.isStalled cutoff ≠ row.isSilent cutoff ∨ row.isSilent cutoff = true ∧ row.IsOverdrawn most

variable {row : JobRow} {cutoff : Instant}

theorem state_of_isStalled (h : row.isStalled cutoff = true) : row.state = .known .processing := by
  simp only [isStalled, Bool.and_eq_true, beq_iff_eq] at h
  exact h.1

theorem state_of_isSilent (h : row.isSilent cutoff = true) : row.state = .known .processing := by
  simp only [isSilent, Bool.and_eq_true, beq_iff_eq] at h
  exact h.1

theorem isStalled_of_plain (hcutoff : StoredTime.isPlain cutoff = true)
    (hplain : ∀ t ∈ row.lastHeartbeatAt, StoredTime.isPlain t = true) :
    row.isStalled cutoff = row.isSilent cutoff := by
  unfold isStalled isSilent
  cases hbeat : row.lastHeartbeatAt with
  | none => rfl
  | some t =>
      have hbefore : StoredTime.before t cutoff = decide (t < cutoff) := by
        rw [Bool.eq_iff_iff, StoredTime.before_of_plain (hplain t hbeat) hcutoff,
          decide_eq_true_iff]
      simp [hbefore]

end JobRow

namespace Queue

open Store Catalog

variable {s : Store} {row : JobRow} {now cutoff : Instant} {most : Nat}

theorem signedResets_eq (hmost : most < 2 ^ 32) :
    signedResets most = if most < 2 ^ 31 then (most : Int) else most - (2 ^ 32 : Nat) := by
  have hpow : ((Nat.pow 2 32 : Nat) : Int) = 4294967296 := rfl
  have hcast : Int.ofNat most = (most : Int) := rfl
  unfold signedResets
  rw [Int.bmod_def, hpow, hcast]
  split
  · split
    · omega
    · omega
  · split
    · omega
    · omega

/-- The signed budget decides as the budget does, unless the job is overdrawn. -/
theorem signedResets_le_iff (hmost : most < 2 ^ 32) :
    (signedResets most ≤ row.numResets ↔ (most : Int) ≤ row.numResets) ↔
      ¬row.IsOverdrawn most := by
  rw [signedResets_eq hmost]
  unfold JobRow.IsOverdrawn
  split
  · omega
  · omega

/-- The row of a job after a split of silent jobs: one whose budget is spent has failed, any other
one is queued again. -/
def splitRow (now cutoff : Instant) (most : Nat) (row : JobRow) : JobRow :=
  if row.isSilent cutoff = true then
    if (most : Int) ≤ row.numResets then diedRow now row else requeuedRow row
  else row

theorem splitRow_of_silent (h : row.isSilent cutoff = true) :
    splitRow now cutoff most row =
      if (most : Int) ≤ row.numResets then diedRow now row else requeuedRow row :=
  if_pos h

theorem resetRow_of_stalled {budget : Int} (h : row.isStalled cutoff = true) :
    resetRow now cutoff budget row =
      if budget ≤ row.numResets then diedRow now row else requeuedRow row :=
  if_pos h

theorem died_ne_requeued : diedRow now row ≠ requeuedRow row := by
  intro h
  have hstate : StoredState.known .failed = .known .queued := congrArg JobRow.state h
  cases hstate

theorem reset_ne_self {P : Prop} [Decidable P] (h : row.state = .known .processing) :
    (if P then diedRow now row else requeuedRow row) ≠ row := by
  intro heq
  have hstate := congrArg JobRow.state heq
  rw [h] at hstate
  split at hstate
  · cases hstate
  · cases hstate

/-- A reset does to a job what a split does, if and only if it does not misjudge it. -/
theorem resetRow_eq_splitRow_iff (hmost : most < 2 ^ 32) :
    resetRow now cutoff (signedResets most) row = splitRow now cutoff most row ↔
      ¬row.IsMisjudged cutoff most := by
  unfold JobRow.IsMisjudged
  cases hstalled : row.isStalled cutoff with
  | false =>
      have hreset : resetRow now cutoff (signedResets most) row = row := by
        simp [resetRow, hstalled]
      cases hsilent : row.isSilent cutoff with
      | false => simp [hreset, splitRow, hsilent]
      | true =>
          rw [hreset, splitRow_of_silent hsilent]
          simp [(reset_ne_self (JobRow.state_of_isSilent hsilent)).symm]
  | true =>
      rw [resetRow_of_stalled hstalled]
      cases hsilent : row.isSilent cutoff with
      | false =>
          have hsplit : splitRow now cutoff most row = row := by simp [splitRow, hsilent]
          rw [hsplit]
          simp [reset_ne_self (JobRow.state_of_isStalled hstalled)]
      | true =>
          rw [splitRow_of_silent hsilent]
          simp only [ne_eq, not_true, false_or, true_and, ← signedResets_le_iff hmost]
          by_cases hsigned : signedResets most ≤ row.numResets
          · by_cases hspent : (most : Int) ≤ row.numResets
            · simp [hsigned, hspent]
            · simp [hsigned, hspent, died_ne_requeued]
          · by_cases hspent : (most : Int) ≤ row.numResets
            · simp [hsigned, hspent, died_ne_requeued.symm]
            · simp [hsigned, hspent]

theorem judged_alike (hmost : most < 2 ^ 32) (h : ¬row.IsMisjudged cutoff most) :
    (row.isStalled cutoff = true ∧ signedResets most ≤ row.numResets ↔
      row.isSilent cutoff = true ∧ (most : Int) ≤ row.numResets) ∧
    (row.isStalled cutoff = true ∧ row.numResets < signedResets most ↔
      row.isSilent cutoff = true ∧ row.numResets < most) := by
  obtain ⟨hread, hbudget⟩ := not_or.mp h
  rw [not_not.mp hread]
  constructor
  · apply and_congr_right
    intro hsilent
    exact (signedResets_le_iff hmost).mpr (not_and.mp hbudget hsilent)
  · apply and_congr_right
    intro hsilent
    rw [← Int.not_le, ← Int.not_le, (signedResets_le_iff hmost).mpr (not_and.mp hbudget hsilent)]

/-- The silent jobs of a catalog are split by the budget into those that fail and those that are
queued again, the counts are their numbers, and nothing else is touched. -/
structure Split (now cutoff : Instant) (most : Nat) (c : Catalog) (counts : ResetCounts)
    (d : Catalog) : Prop where
  rows : ∀ id, d.jobs.get? id = (c.jobs.get? id).map (splitRow now cutoff most)
  failed : counts.failed =
    c.jobs.count fun _ row => row.isSilent cutoff && (most : Int) ≤ row.numResets
  reset : counts.reset =
    c.jobs.count fun _ row => row.isSilent cutoff && row.numResets < most
  others : d.toTables = { c.toTables with jobs := d.jobs }

/-- A reset splits the silent jobs if and only if it misjudges no job. -/
theorem split_iff (hs : s.catalog.Complete) (now cutoff : Instant) (hmost : most < 2 ^ 32) :
    ∃ counts d, resetStalled now cutoff most s = (.ok counts, { s with catalog := d }) ∧
      (Split now cutoff most s.catalog counts d ↔
        ∀ id row, s.catalog.jobs.get? id = some row → ¬row.IsMisjudged cutoff most) := by
  obtain ⟨d, hrun, htables⟩ := run_resetStalled hs now cutoff most
  have hrows : ∀ id, d.jobs.get? id =
      (s.catalog.jobs.get? id).map (resetRow now cutoff (signedResets most)) := by
    intro id
    rw [htables]
    exact Table.get?_map _ _ id
  refine ⟨_, d, hrun, ⟨fun hsplit id row hrow => ?_, fun hjudged => ?_⟩⟩
  · have hsame := (hrows id).symm.trans (hsplit.rows id)
    rw [hrow] at hsame
    exact (resetRow_eq_splitRow_iff hmost).mp (Option.some.inj hsame)
  · have hfailed : (s.catalog.jobs.count fun _ row =>
        row.isStalled cutoff && signedResets most ≤ row.numResets) =
          s.catalog.jobs.count fun _ row =>
            row.isSilent cutoff && (most : Int) ≤ row.numResets := by
      apply Table.count_congr
      intro id row hrow
      rw [Bool.eq_iff_iff]
      simpa using (judged_alike hmost (hjudged id row hrow)).1
    have hreset : (s.catalog.jobs.count fun _ row =>
        row.isStalled cutoff && row.numResets < signedResets most) =
          s.catalog.jobs.count fun _ row => row.isSilent cutoff && row.numResets < most := by
      apply Table.count_congr
      intro id row hrow
      rw [Bool.eq_iff_iff]
      simpa using (judged_alike hmost (hjudged id row hrow)).2
    refine ⟨fun id => ?_, hfailed, hreset, ?_⟩
    · rw [hrows]
      refine Option.map_congr fun row hrow => ?_
      exact (resetRow_eq_splitRow_iff hmost).mpr (hjudged id row hrow)
    · rw [htables]

end Queue

namespace Worker

open Queue

variable {w : World}

/-- Unless the cutoff lies outside of the calendar, a reset comes to an end; it splits the silent
jobs by the budget if and only if it misjudges none, and it misjudges none as long as the budget
fits a signed number and years have four digits. -/
theorem reclaim_splits_iff (hs : w.store.catalog.Complete) (age : Duration) {most : Nat}
    (hmost : most < 2 ^ 32) :
    (∀ cutoff, w.store.tick.clock.sub? age = some cutoff →
      ∃ counts w', reclaim age most w = (.ok counts, w') ∧
        (Split w.store.clock cutoff most w.store.catalog counts w'.store.catalog ↔
          ∀ id row, w.store.catalog.jobs.get? id = some row → ¬row.IsMisjudged cutoff most) ∧
        (most < 2 ^ 31 → StoredTime.isPlain cutoff = true →
          (∀ id row, w.store.catalog.jobs.get? id = some row →
            ∀ t ∈ row.lastHeartbeatAt, StoredTime.isPlain t = true) →
          Split w.store.clock cutoff most w.store.catalog counts w'.store.catalog)) ∧
    (w.store.tick.clock.sub? age = none → ∃ w', reclaim age most w =
      (.error (.defect .timeBeforeStart), w') ∧ w'.store.catalog = w.store.catalog) := by
  have hnow : Effect.ofStore Store.now w = (.ok w.store.clock, { w with store := w.store.tick }) :=
    rfl
  have hclock : Effect.ofStore Store.now { w with store := w.store.tick } =
      (.ok w.store.tick.clock, { w with store := w.store.tick.tick }) := rfl
  unfold reclaim
  rw [bind_of_ok hnow]
  constructor
  · intro cutoff hcutoff
    have hago : timeAgo age { w with store := w.store.tick } =
        (.ok cutoff, { w with store := w.store.tick.tick }) := by
      unfold timeAgo
      rw [bind_of_ok hclock, hcutoff]
      rfl
    have hcomplete : w.store.tick.tick.catalog.Complete := hs
    obtain ⟨counts, d, hrun, hiff⟩ := split_iff hcomplete w.store.clock cutoff hmost
    have hreset : Effect.ofStore (resetStalled w.store.clock cutoff most)
        { w with store := w.store.tick.tick } =
          (.ok counts, { w with store := { w.store.tick.tick with catalog := d } }) := by
      unfold Effect.ofStore
      rw [hrun]
    rw [bind_of_ok hago]
    refine ⟨counts, _, hreset, hiff, fun hsmall hplain hbeats => hiff.mpr fun id row hrow => ?_⟩
    rintro (hmisread | ⟨-, hlarge, -⟩)
    · exact hmisread (JobRow.isStalled_of_plain hplain (hbeats id row hrow))
    · omega
  · intro hnone
    have hago : timeAgo age { w with store := w.store.tick } =
        (.error (.defect .timeBeforeStart), { w with store := w.store.tick.tick }) := by
      unfold timeAgo
      rw [bind_of_ok hclock, hnone]
      rfl
    rw [bind_of_error hago]
    exact ⟨_, rfl, rfl⟩

/-- A store two minutes after a worker has claimed its only job. -/
def Sample.silent : World :=
  let s := (Queue.dequeue (Queue.enqueue 1 Queue.Sample.idle).2).2
  ⟨{ s with clock := .ofSeconds 120 }, [], false, []⟩

theorem Sample.complete_silent : Sample.silent.store.catalog.Complete := by
  intro t
  cases t <;> decide

/-- With a budget of one reset the job is queued again. -/
theorem reclaim_splits_iff_first :
    let age : Duration := ⟨60 * Duration.nanosecondsPerSecond⟩
    let cutoff : Instant := ⟨60 * Duration.nanosecondsPerSecond + 1000⟩
    let w := Sample.silent
    w.store.tick.clock.sub? age = some cutoff ∧
      ∃ w', reclaim age 1 w = (.ok ⟨1, 0⟩, w') ∧
        Split w.store.clock cutoff 1 w.store.catalog ⟨1, 0⟩ w'.store.catalog := by
  intro age cutoff w
  have hcutoff : w.store.tick.clock.sub? age = some cutoff := by decide
  have hplain : StoredTime.isPlain cutoff = true := by decide
  have hbeats : ∀ e ∈ w.store.catalog.jobs.toList, ∀ t ∈ e.2.lastHeartbeatAt,
      StoredTime.isPlain t = true := by
    decide
  have hbudget : 1 < 2 ^ 32 := by decide
  obtain ⟨hends, -⟩ := reclaim_splits_iff Sample.complete_silent age hbudget
  obtain ⟨counts, w', hrun, -, hsplit⟩ := hends cutoff hcutoff
  obtain ⟨v, hcounts⟩ : ∃ v, reclaim age 1 w = (.ok ⟨1, 0⟩, v) := ⟨_, rfl⟩
  cases hcounts.symm.trans hrun
  refine ⟨hcutoff, w', hrun, hsplit (by decide) hplain fun id row hrow => ?_⟩
  exact hbeats (id, row) (Table.get?_eq_some_iff.mp hrow)

/-- With the largest budget the job fails, although it was never reset before. -/
theorem largest_budget_overdrawn :
    let age : Duration := ⟨60 * Duration.nanosecondsPerSecond⟩
    let cutoff : Instant := ⟨60 * Duration.nanosecondsPerSecond + 1000⟩
    let w := Sample.silent
    w.store.tick.clock.sub? age = some cutoff ∧
      ∃ w', reclaim age 4294967295 w = (.ok ⟨0, 1⟩, w') ∧
        ¬Split w.store.clock cutoff 4294967295 w.store.catalog ⟨0, 1⟩ w'.store.catalog := by
  intro age cutoff w
  refine ⟨by decide, _, rfl, fun hsplit => ?_⟩
  have hnone : (w.store.catalog.jobs.count fun _ row =>
      row.isSilent cutoff && ((4294967295 : Nat) : Int) ≤ row.numResets) = 0 := by
    decide
  cases hsplit.failed.trans hnone

end Worker

end RepoCatalog
