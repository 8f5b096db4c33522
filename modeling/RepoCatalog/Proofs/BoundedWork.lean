import RepoCatalog.Proofs.Coherent

/-!
# Bounded work

A report is heeded in any state of a job, so a job that was completed or has failed may be tried
again. Its counts of failures and of resets never go down, though. Together with the question
whether the job waits for a worker they bound how often it has been handed out: a worker that gets
the job ends the waiting, and only a failure inside the budget or a reset makes the job wait again.
-/
namespace RepoCatalog

open Time (Instant)

def JobRow.isWaiting (row : JobRow) : Bool :=
  row.state.satisfies fun state => state == .queued || state == .errored

namespace Queue

open Catalog

variable {s : Store} {log : List (Store × Call)}

def timesHanded (id : Int) (log : List (Store × Call)) : Nat :=
  log.countP fun e => e.2.hands e.1 id

/-- How often a job may have been handed out by now: once to begin with and again for every reset
and every failure inside the budget, but once less while it waits for a worker. -/
def turns (budget : Nat) (row : JobRow) : Int :=
  row.numResets + min row.numFailures budget + if row.isWaiting then 0 else 1

section
variable {budget : Nat} {row : JobRow} {now : Instant}

theorem turns_of_waiting (h : row.isWaiting = true) :
    turns budget row = row.numResets + min row.numFailures budget := by
  simp only [turns, h, if_true, Int.add_zero]

theorem turns_of_not_waiting (h : row.isWaiting = false) :
    turns budget row = row.numResets + min row.numFailures budget + 1 := by
  simp only [turns, h, Bool.false_eq_true, if_false]

theorem turns_le : turns budget row ≤ row.numResets + min row.numFailures budget + 1 := by
  unfold turns
  split
  · omega
  · omega

theorem turns_fresh (budget : Nat) (service : Int) (now : Instant) :
    turns budget (.fresh service now) = 0 := by
  rw [turns_of_waiting rfl]
  change 0 + min 0 (budget : Int) = 0
  omega

theorem isWaiting_of_ready (h : row.isReady now = true) : row.isWaiting = true := by
  unfold JobRow.isReady at h
  rw [Bool.and_eq_true] at h
  exact h.1

/-- A job that has failed waits again as long as its failures stay inside the budget. -/
theorem isWaiting_failure (budget : Nat) (row : JobRow) (now : Instant) (message : String) :
    ((Report.failure budget message).mark now row).isWaiting =
      decide (row.numFailures + 1 ≤ budget) := by
  by_cases hspent : (budget : Int) < row.numFailures + 1
  · simp only [JobRow.isWaiting, Report.mark, if_pos hspent, Int.not_le.mpr hspent, decide_false]
    rfl
  · simp only [JobRow.isWaiting, Report.mark, if_neg hspent, Int.not_lt.mp hspent, decide_true]
    rfl

theorem turns_claimed (h : row.isReady now = true) :
    turns budget (claimedRow now row) = turns budget row + 1 := by
  have hheld : (claimedRow now row).isWaiting = false := rfl
  rw [turns_of_waiting (isWaiting_of_ready h), turns_of_not_waiting hheld]
  rfl

theorem turns_reported (report : Report) (hbudget : ∀ b ∈ (report.call 0).budget?, b = budget) :
    turns budget row ≤ turns budget (report.mark now row) := by
  have hle : turns budget row ≤ row.numResets + min row.numFailures budget + 1 := turns_le
  cases report with
  | success =>
      have hended : (Report.success.mark now row).isWaiting = false := rfl
      rw [turns_of_not_waiting hended]
      exact hle
  | failure b message =>
      obtain rfl : b = budget := hbudget b rfl
      have hwaiting := isWaiting_failure b row now message
      by_cases hleft : row.numFailures + 1 ≤ b
      · rw [turns_of_waiting (hwaiting.trans (decide_eq_true hleft))]
        change turns b row ≤ row.numResets + min (row.numFailures + 1) b
        omega
      · rw [turns_of_not_waiting (hwaiting.trans (decide_eq_false hleft))]
        change turns b row ≤ row.numResets + min (row.numFailures + 1) b + 1
        omega

theorem turns_died : turns budget row ≤ turns budget (diedRow now row) := by
  have hfailed : (diedRow now row).isWaiting = false := rfl
  rw [turns_of_not_waiting hfailed]
  exact turns_le

theorem turns_requeued : turns budget row ≤ turns budget (requeuedRow row) := by
  have hwaiting : (requeuedRow row).isWaiting = true := rfl
  have hle : turns budget row ≤ row.numResets + min row.numFailures budget + 1 := turns_le
  rw [turns_of_waiting hwaiting]
  change turns budget row ≤ row.numResets + 1 + min row.numFailures budget
  omega

end

namespace Move

variable {id : Int} {call : Call} {row? row?' : Option JobRow}

theorem handed_le_turns {budget handed : Nat} {given : Bool}
    (hbudget : ∀ b ∈ call.budget?, b = budget) (h : Move s id call given row? row?')
    (hrow : ∀ row ∈ row?, (handed : Int) ≤ turns budget row)
    (hunborn : s.catalog.jobs.lastId < id → handed = 0) :
    ∀ row ∈ row?', ((handed + if given then 1 else 0 : Nat) : Int) ≤ turns budget row := by
  cases h with
  | stays => exact hrow
  | queued hnew =>
      rw [hunborn hnew]
      exact forall_mem_some.mpr (Int.le_of_eq (turns_fresh budget _ _).symm)
  | @claimed row hready =>
      refine forall_mem_some.mpr ?_
      have hbefore := hrow row rfl
      rw [turns_claimed hready, if_pos rfl]
      omega
  | @heard row _ => exact forall_mem_some.mpr (hrow row rfl)
  | @died _ _ _ row _ _ => exact forall_mem_some.mpr (Int.le_trans (hrow row rfl) turns_died)
  | @requeued _ _ _ row _ _ =>
      exact forall_mem_some.mpr (Int.le_trans (hrow row rfl) turns_requeued)
  | purged _ => exact fun _ h => by cases h
  | @reported row report =>
      refine forall_mem_some.mpr (Int.le_trans (hrow row rfl) (turns_reported report ?_))
      cases report with
      | success => exact hbudget
      | failure b message => exact hbudget

theorem exists_of_given (h : Move s id call true row? row?') :
    (∃ row, row? = some row) ∧ ∃ row, row?' = some row := by
  cases h with
  | claimed _ => exact ⟨⟨_, rfl⟩, _, rfl⟩

end Move

/-- A job was handed out no more often than the turns of its row, as long as it has one, and no more
often than `bound` at all. Nobody has had a job whose id was not given out yet. -/
structure Counted (budget bound : Nat) (c : Catalog) (id : Int) (handed : Nat) : Prop where
  row : ∀ row ∈ c.jobs.get? id, (handed : Int) ≤ turns budget row
  bound : handed ≤ bound
  unborn : c.jobs.lastId < id → handed = 0

/-- Every call keeps count, as long as the turns of the row stay inside the bound. -/
theorem Counted.after {budget bound : Nat} {id : Int} {handed : Nat} (hs : s.catalog.Complete)
    (h : Counted budget bound s.catalog id handed) {call : Call}
    (hbudget : ∀ b ∈ call.budget?, b = budget)
    (hbound : ∀ row ∈ (call.after s).catalog.jobs.get? id, turns budget row ≤ bound) :
    Counted budget bound (call.after s).catalog id (handed + if call.hands s id then 1 else 0) := by
  have hmove := move hs call id
  have hturns := hmove.handed_le_turns hbudget h.row h.unborn
  refine ⟨hturns, ?_, fun hnew => ?_⟩
  · cases hgiven : call.hands s id with
    | false => exact h.bound
    | true =>
        rw [hgiven] at hmove hturns
        obtain ⟨-, row, hrow⟩ := hmove.exists_of_given
        exact Int.ofNat_le.mp (Int.le_trans (hturns row hrow) (hbound row hrow))
  · have hnew' := Int.lt_of_le_of_lt (call.lastId_after hs) hnew
    cases hgiven : call.hands s id with
    | false => exact h.unborn hnew'
    | true =>
        rw [hgiven] at hmove
        obtain ⟨⟨row, hrow⟩, -⟩ := hmove.exists_of_given
        rw [Table.get?_of_lastId_lt hnew'] at hrow
        cases hrow

theorem counted {budget most : Nat} (h : Run log s)
    (hbudget : ∀ e ∈ log, ∀ b ∈ e.2.budget?, b = budget)
    (hmost : ∀ e ∈ log, ∀ m ∈ e.2.most?, m ≤ most) (id : Int) :
    Counted budget (1 + most + budget) s.catalog id (timesHanded id log) := by
  induction h with
  | @start s hempty _ =>
      refine ⟨fun row hrow => ?_, Nat.zero_le _, fun _ => rfl⟩
      rw [Table.get?_of_toList_nil hempty] at hrow
      cases hrow
  | elsewhere _ hjobs _ ih =>
      obtain ⟨hrow, hle, hunborn⟩ := ih hbudget hmost
      exact ⟨hjobs ▸ hrow, hle, hjobs ▸ hunborn⟩
  | @call log s call hrun ih =>
      obtain ⟨hcall, hbudget'⟩ := List.forall_mem_cons.mp hbudget
      have hcounted := ih hbudget' (List.forall_mem_cons.mp hmost).2
      have hresets := (hrun.call call).forall_rows
        (P := fun row => row.numResets ≤ most) (fun hcall hmove => hmove.numResets hcall) hmost id
      have hnext := hcounted.after hrun.complete hcall fun row hrow => by
        have hle : turns budget row ≤ row.numResets + min row.numFailures budget + 1 := turns_le
        have hreset := hresets row hrow
        omega
      unfold timesHanded at hnext ⊢
      rw [List.countP_cons]
      exact hnext

/-- In every run of calls that allow for the same budget of failures and for `most` resets at most,
workers get a job once, and then no more often than the two together allow, whoever reports what and
when. -/
theorem handed_out_at_most {budget most : Nat} (h : Run log s)
    (hbudget : ∀ e ∈ log, ∀ b ∈ e.2.budget?, b = budget)
    (hmost : ∀ e ∈ log, ∀ m ∈ e.2.most?, m ≤ most) (id : Int) :
    timesHanded id log ≤ 1 + most + budget :=
  (counted h hbudget hmost id).bound

/-- A worker that lost its job reports it late, twice, and the job is handed out as often as it may
be. -/
theorem handed_out_at_most_reached :
    let h := Run.play Sample.idle [.enqueue 1, .dequeue, .resetStalled ⟨0⟩ ⟨1000000000⟩ 1, .dequeue,
      .complete 1, .fail 1 1 "boom", .dequeue, .fail 1 1 "boom", .dequeue]
    timesHanded 1 h.1 = 1 + 1 + 1 ∧ timesHanded 1 h.1 ≤ 1 + 1 + 1 := by
  intro h
  have hrun : Run h.1 h.2 := Run.of_play rfl Sample.complete_idle _
  have hbudget : ∀ e ∈ h.1, ∀ b ∈ e.2.budget?, b = 1 := by decide +kernel
  have hmost : ∀ e ∈ h.1, ∀ m ∈ e.2.most?, m ≤ 1 := by decide +kernel
  exact ⟨by decide +kernel, handed_out_at_most hrun hbudget hmost 1⟩

end Queue

end RepoCatalog
