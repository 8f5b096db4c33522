import RepoCatalog.Proofs.FirstJob

/-!
# Interleaved calls

Workers call the queue at the same time, and between two statements of one call there may be any
number of statements of others. A worker claims the job that it has seen only if the job is still in
the state in which it was seen, and no worker ever sees a job as next that is being processed. So of
two claims of one job the later one finds that something has ended the processing in between.
-/
namespace RepoCatalog.Queue

open Step Store
open Time (Instant)

/-- What is still to be done of a call of the queue. -/
inductive Activity where
  | looking (attempts : Nat)
  | claiming (attempts : Nat) (now : Instant) (id : Int) (seen : JobRow)
  | handing (now : Instant) (id : Int) (seen : JobRow)
  | reporting (budget : Nat) (id : Int) (message : String)
  | entering (budget : Nat) (id : Int) (seen : JobRow) (message : String)
  | givingUp (now cutoff : Instant) (most : Int)
  | requeueing (cutoff : Instant) (most : Int)
  /-- A call of one statement or one transaction. -/
  | whole (call : Call)

namespace Activity

def ofCall : Call → Activity
  | .dequeue => .looking maxClaimAttempts
  | .fail budget id message => .reporting budget id message
  | .resetStalled now cutoff most => .givingUp now cutoff (signedResets most)
  | call => .whole call

/-- Executes the next statement of an activity, and gives what is to be done after it. -/
def next : Activity → StoreM (Option Activity)
  | .looking 0 => return none
  | .looking (attempts + 1) => do
    let (now, next) ← look
    return next.map fun (id, seen) => .claiming attempts now id seen
  | .claiming attempts now id seen => do
    return some (if ← claim now id seen then .handing now id seen else .looking attempts)
  | .handing now id seen => do
    let _ ← handOut now id seen
    return none
  | .reporting budget id message => do
    let seen ← read [.jobs] fun c => c.jobs.get? id
    return seen.map fun seen => .entering budget id seen message
  | .entering budget id seen message => do
    let _ ← enterFailure budget id seen message
    return none
  | .givingUp now cutoff most => do
    let _ ← giveUpStalled now cutoff most
    return some (.requeueing cutoff most)
  | .requeueing cutoff most => do
    let _ ← requeueStalled cutoff most
    return none
  | .whole call => fun s => (.ok none, call.after s)

def after (s : Store) (a : Activity) : Store :=
  (a.next s).2

/-- What is to be done after the next statement. A statement that fails is the last one. -/
def rest (s : Store) (a : Activity) : Option Activity :=
  match (a.next s).1 with
  | .ok rest => rest
  | .error _ => none

/-- An activity from one store to another while there is no other one. -/
inductive Alone : Activity → Store → Store → Prop where
  | last {a : Activity} {s : Store} : a.rest s = none → Alone a s (a.after s)
  | more {a b : Activity} {s t : Store} : a.rest s = some b → Alone b (a.after s) t → Alone a s t

variable {α β : Type} {s : Store}

/-- An activity does what a step does if its next statement is the start of the step and what is to
be done then is the rest of it. -/
theorem Alone.of_bind {a : Activity} {x : StoreM α} {g : α → Option Activity} {k : α → StoreM β}
    (hnext : a.next = x >>= fun v => pure (g v))
    (hnone : ∀ v t, x s = (.ok v, t) → g v = none → (k v t).2 = t)
    (hsome : ∀ v t b, x s = (.ok v, t) → g v = some b → Alone b t (k v t).2) :
    Alone a s ((x >>= k) s).2 := by
  cases hx : x s with
  | mk r t =>
      cases r with
      | error e =>
          have hrun : a.next s = (.error e, t) := by rw [hnext, bind_of_error hx]
          have hrest : a.rest s = none := by rw [rest, hrun]
          have hafter : a.after s = t := by rw [after, hrun]
          rw [bind_of_error hx]
          exact hafter ▸ .last hrest
      | ok v =>
          have hrun : a.next s = (.ok (g v), t) := by rw [hnext, bind_of_ok hx, run_pure]
          have hafter : a.after s = t := by rw [after, hrun]
          rw [bind_of_ok hx]
          cases hg : g v with
          | none =>
              have hrest : a.rest s = none := by rw [rest, hrun, hg]
              rw [hnone v t hx hg]
              exact hafter ▸ .last hrest
          | some b =>
              have hrest : a.rest s = some b := by rw [rest, hrun, hg]
              exact .more hrest (hafter.symm ▸ hsome v t b hx hg)

theorem Alone.of_last {a : Activity} {x : StoreM α} (hnext : a.next = x >>= fun _ => pure none)
    (f : α → β) : Alone a s ((x >>= fun v => pure (f v)) s).2 := by
  refine .of_bind hnext (fun _ _ _ _ => rfl) fun _ _ _ _ hg => ?_
  cases hg

theorem alone_looking (attempts : Nat) (s : Store) :
    Alone (.looking attempts) s (dequeueWithin attempts s).2 := by
  induction attempts generalizing s with
  | zero => exact .last rfl
  | succ attempts ih =>
      refine .of_bind (g := fun v => v.2.map fun e => .claiming attempts v.1 e.1 e.2) rfl ?_ ?_
      · rintro ⟨now, _ | e⟩ t - hg
        · rfl
        · cases hg
      · rintro ⟨now, _ | ⟨id, seen⟩⟩ t b - hg
        · cases hg
        · cases hg
          refine .of_bind (g := fun won => some
            (if won then .handing now id seen else .looking attempts)) rfl ?_ ?_
          · intro won u _ hg
            cases hg
          · rintro (_ | _) u c - hg
            · cases hg
              exact ih u
            · cases hg
              exact .of_last rfl some

/-- A call that is made while there is no other one does what it is to do. -/
theorem alone_ofCall (call : Call) (s : Store) : Alone (ofCall call) s (call.after s) := by
  cases call with
  | enqueueDue isCloud => exact .last rfl
  | enqueue service => exact .last rfl
  | dequeue => exact alone_looking maxClaimAttempts s
  | heartbeat id => exact .last rfl
  | complete id => exact .last rfl
  | purge cutoff => exact .last rfl
  | fail budget id message =>
      refine .of_bind (g := fun seen => seen.map fun seen => .entering budget id seen message) rfl
        ?_ ?_
      · rintro (_ | seen) t - hg
        · rfl
        · cases hg
      · rintro (_ | seen) t b - hg
        · cases hg
        · cases hg
          have hlast := Alone.of_last (a := .entering budget id seen message) (s := t)
            (x := enterFailure budget id seen message) rfl fun state => state
          rw [bind_pure] at hlast
          exact hlast
  | resetStalled now cutoff most =>
      refine .of_bind (g := fun _ => some (.requeueing cutoff (signedResets most))) rfl ?_ ?_
      · intro _ _ _ hg
        cases hg
      · intro _ _ _ _ hg
        cases hg
        exact .of_last rfl _

/-- The next statement claims the job. -/
def claims (s : Store) (id : Int) : Activity → Bool
  | .claiming _ now k seen =>
      k == id && match (claim now k seen s).1 with
        | .ok isWon => isWon
        | .error _ => false
  | _ => false

end Activity

def isProcessing (c : Catalog) (id : Int) : Bool :=
  (c.jobs.get? id).any (·.state == .known .processing)

/-- The next statement takes the job out of processing. -/
def Activity.releases (s : Store) (id : Int) (a : Activity) : Bool :=
  isProcessing s.catalog id && !isProcessing (a.after s).catalog id

/-- A job that is to be claimed was ready when it was seen. -/
def Activity.SawReady : Activity → Prop
  | .claiming _ now _ seen => seen.isReady now = true
  | _ => True

section
variable {s t : Store} {now : Instant} {id : Int} {seen : JobRow} {a : Activity}

theorem read_ok {α : Type} {tables : List TableName} {f : Catalog → α} {v : α}
    (h : read tables f s = (.ok v, t)) : f s.catalog = v := by
  obtain ⟨_, u, hrequire, hrest⟩ := bind_ok_iff.mp h
  have hstill := snd_require tables .refusedRead s
  rw [hrequire] at hstill
  cases hstill
  cases hrest
  rfl

theorem look_ready (h : look s = (.ok (now, some (id, seen)), t)) : seen.isReady now = true := by
  unfold look at h
  rw [bind_of_ok (run_now s)] at h
  obtain ⟨next, u, hread, hpure⟩ := bind_ok_iff.mp h
  cases hpure
  exact (mem_of_next? (read_ok hread)).2

theorem claim_won (h : claim now id seen s = (.ok true, t)) :
    (∃ row, s.catalog.jobs.get? id = some row ∧ row.state = seen.state) ∧
      isProcessing t.catalog id = true := by
  obtain ⟨count, u, hchange, hpure⟩ := bind_ok_iff.mp h
  obtain ⟨c, hc, hu⟩ := write_ok hchange
  cases hc
  have hcount : (s.catalog.jobs.count fun k row => k == id && row.state == seen.state) ≠ 0 :=
    bne_iff_ne.mp (Except.ok.inj (congrArg Prod.fst hpure))
  obtain ⟨⟨k, row⟩, hmem, hseen⟩ := List.countP_pos_iff.mp (Nat.pos_of_ne_zero hcount)
  simp only [Bool.and_eq_true, beq_iff_eq] at hseen
  obtain ⟨rfl, hstate⟩ := hseen
  have hrow := Table.get?_eq_some_iff.mpr hmem
  have ht : u = t := congrArg Prod.snd hpure
  have hafter := Catalog.get?_changedJobs s.catalog
    (fun i row => i == k && row.state == seen.state) (claimedRow now) k
  rw [hrow, Option.map_some, beq_self_eq_true, Bool.true_and, if_pos (beq_iff_eq.mpr hstate)] at hafter
  refine ⟨⟨row, hrow, hstate⟩, ?_⟩
  unfold isProcessing
  rw [← ht, ← hu]
  exact (congrArg _ hafter).trans rfl

theorem not_processing_of_ready {row : JobRow} (h : row.isReady now = true) :
    row.state ≠ .known .processing := by
  intro hstate
  unfold JobRow.isReady at h
  rw [hstate] at h
  cases h

theorem claim_of_claims (h : a.claims s id = true) :
    ∃ attempts now seen t, a = .claiming attempts now id seen ∧
      claim now id seen s = (.ok true, t) := by
  cases a with
  | claiming attempts now k seen =>
      simp only [Activity.claims, Bool.and_eq_true, beq_iff_eq] at h
      obtain ⟨rfl, hwon⟩ := h
      cases hclaim : claim now k seen s with
      | mk r t =>
          rw [hclaim] at hwon
          cases r with
          | error e => cases hwon
          | ok isWon =>
              cases hwon
              exact ⟨attempts, now, seen, t, rfl, hclaim⟩
  | looking attempts => cases h
  | handing now k seen => cases h
  | reporting budget k message => cases h
  | entering budget k seen message => cases h
  | givingUp now cutoff most => cases h
  | requeueing cutoff most => cases h
  | whole call => cases h

theorem processing_of_claims (ha : a.SawReady) (h : a.claims s id = true) :
    isProcessing s.catalog id = false ∧ isProcessing (a.after s).catalog id = true := by
  obtain ⟨attempts, now, seen, t, rfl, hclaim⟩ := claim_of_claims h
  obtain ⟨⟨row, hrow, hstate⟩, hafter⟩ := claim_won hclaim
  have hnext : (Activity.claiming attempts now id seen).next s =
      (.ok (some (.handing now id seen)), t) :=
    bind_of_ok hclaim
  constructor
  · unfold isProcessing
    rw [hrow, Option.any_some, hstate]
    exact beq_false_of_ne (not_processing_of_ready ha)
  · unfold Activity.after
    rw [hnext]
    exact hafter

theorem exists_of_rest {α : Type} {x : StoreM α} {g : α → Option Activity}
    (hnext : a.next = x >>= fun v => pure (g v)) {b : Activity} (hb : b ∈ a.rest s) :
    ∃ v t, x s = (.ok v, t) ∧ g v = some b := by
  unfold Activity.rest at hb
  rw [hnext] at hb
  cases hx : x s with
  | mk r t =>
      cases r with
      | error e =>
          rw [bind_of_error hx] at hb
          cases hb
      | ok v =>
          rw [bind_of_ok hx] at hb
          exact ⟨v, t, rfl, hb⟩

theorem sawReady_of_rest {b : Activity} (hb : b ∈ a.rest s) : b.SawReady := by
  cases a with
  | looking attempts =>
      cases attempts with
      | zero => cases hb
      | succ attempts =>
          obtain ⟨⟨now, _ | ⟨id, seen⟩⟩, t, hlook, hg⟩ :=
            exists_of_rest (a := .looking (attempts + 1)) (x := look)
              (g := fun v => v.2.map fun e => .claiming attempts v.1 e.1 e.2) rfl hb
          · cases hg
          · cases hg
            exact look_ready hlook
  | claiming attempts now k seen =>
      obtain ⟨_ | _, t, -, hg⟩ :=
        exists_of_rest (a := .claiming attempts now k seen) (x := claim now k seen)
          (g := fun isWon => some (if isWon then .handing now k seen else .looking attempts)) rfl hb
      · cases hg
        trivial
      · cases hg
        trivial
  | reporting budget k message =>
      obtain ⟨_ | seen, t, -, hg⟩ :=
        exists_of_rest (a := .reporting budget k message)
          (x := Store.read [.jobs] fun c => c.jobs.get? k)
          (g := fun seen => seen.map fun seen => .entering budget k seen message) rfl hb
      · cases hg
      · cases hg
        trivial
  | givingUp now cutoff most =>
      obtain ⟨_, t, -, hg⟩ :=
        exists_of_rest (a := .givingUp now cutoff most) (x := giveUpStalled now cutoff most)
          (g := fun _ => some (.requeueing cutoff most)) rfl hb
      cases hg
      trivial
  | handing now k seen =>
      obtain ⟨_, t, -, hg⟩ := exists_of_rest (a := .handing now k seen) (x := handOut now k seen)
        (g := fun _ => none) rfl hb
      cases hg
  | entering budget k seen message =>
      obtain ⟨_, t, -, hg⟩ := exists_of_rest (a := .entering budget k seen message)
        (x := enterFailure budget k seen message) (g := fun _ => none) rfl hb
      cases hg
  | requeueing cutoff most =>
      obtain ⟨_, t, -, hg⟩ := exists_of_rest (a := .requeueing cutoff most)
        (x := requeueStalled cutoff most) (g := fun _ => none) rfl hb
      cases hg
  | whole call => cases hb

end

/-- Calls that are made at the same time, one statement after the other: the statements so far, the
last one first, each with the store on which it was executed, and what is still to be done. Between
statements, anything but the jobs may change. -/
inductive Interleaving : List (Store × Activity) → List Activity → Store → Prop where
  | start {s : Store} : Interleaving [] [] s
  | elsewhere {log : List (Store × Activity)} {under : List Activity} {s t : Store} :
      Interleaving log under s → t.catalog.jobs = s.catalog.jobs → Interleaving log under t
  | call {log : List (Store × Activity)} {under : List Activity} {s : Store} (call : Call) :
      Interleaving log under s → Interleaving log (.ofCall call :: under) s
  | step {log : List (Store × Activity)} {under : List Activity} {s : Store} {a : Activity}
      (i : Nat) : under[i]? = some a → Interleaving log under s →
        Interleaving ((s, a) :: log) (under.take i ++ (a.rest s).toList ++ under.drop (i + 1))
          (a.after s)

namespace Interleaving

variable {log : List (Store × Activity)} {under : List Activity} {s : Store} {id : Int}

theorem sawReady (h : Interleaving log under s) : ∀ a ∈ under, a.SawReady := by
  induction h with
  | start => exact fun a ha => by cases ha
  | elsewhere _ _ ih => exact ih
  | call call _ ih =>
      refine List.forall_mem_cons.mpr ⟨?_, ih⟩
      cases call <;> trivial
  | @step log under s a i hi h ih =>
      intro b hb
      simp only [List.mem_append, Option.mem_toList] at hb
      rcases hb with (hb | hb) | hb
      · exact ih b (List.mem_of_mem_take hb)
      · exact sawReady_of_rest hb
      · exact ih b (List.mem_of_mem_drop hb)

/-- Since a claim of a job, the job has been processed, unless a statement took it out of
processing. -/
theorem processing_since_claim (h : Interleaving log under s) {j : Nat} {e : Store × Activity}
    (he : log[j]? = some e) (hclaim : e.2.claims e.1 id = true) :
    isProcessing s.catalog id = true ∨
      ∃ k x, k < j ∧ log[k]? = some x ∧ x.2.releases x.1 id = true := by
  induction h generalizing j with
  | start => cases he
  | @elsewhere log under s t _ hjobs ih =>
      have hsame : isProcessing t.catalog id = isProcessing s.catalog id := by
        unfold isProcessing
        rw [hjobs]
      rw [hsame]
      exact ih he
  | call call _ ih => exact ih he
  | @step log under s a i hi h ih =>
      cases j with
      | zero =>
          rw [List.getElem?_cons_zero] at he
          cases he
          exact .inl (processing_of_claims (h.sawReady a (List.mem_of_getElem? hi)) hclaim).2
      | succ j =>
          rw [List.getElem?_cons_succ] at he
          rcases ih he with hprocessing | ⟨k, x, hk, hx, hreleases⟩
          · cases hafter : isProcessing (a.after s).catalog id with
            | true => exact .inl rfl
            | false =>
                refine .inr ⟨0, (s, a), Nat.succ_pos j, rfl, ?_⟩
                simp only [Activity.releases, hprocessing, hafter, Bool.not_false, Bool.and_true]
          · exact .inr ⟨k + 1, x, Nat.succ_lt_succ hk, hx, hreleases⟩

/-- Between two claims of one job some statement took it out of processing. -/
theorem released_between_claims (h : Interleaving log under s) {i j : Nat} (hij : i < j)
    {e e' : Store × Activity} (he : log[j]? = some e) (he' : log[i]? = some e')
    (hclaim : e.2.claims e.1 id = true) (hclaim' : e'.2.claims e'.1 id = true) :
    ∃ k x, i < k ∧ k < j ∧ log[k]? = some x ∧ x.2.releases x.1 id = true := by
  induction h generalizing i j with
  | start => cases he
  | elsewhere _ _ ih => exact ih hij he he'
  | call call _ ih => exact ih hij he he'
  | @step log under s a n hn h ih =>
      obtain ⟨j, rfl⟩ : ∃ j', j = j' + 1 := ⟨j - 1, by omega⟩
      rw [List.getElem?_cons_succ] at he
      cases i with
      | zero =>
          rw [List.getElem?_cons_zero] at he'
          cases he'
          have hidle := (processing_of_claims (h.sawReady a (List.mem_of_getElem? hn)) hclaim').1
          rcases h.processing_since_claim he hclaim with hprocessing | ⟨k, x, hk, hx, hreleases⟩
          · exact absurd (hidle.symm.trans hprocessing) Bool.false_ne_true
          · exact ⟨k + 1, x, Nat.succ_pos k, Nat.succ_lt_succ hk, hx, hreleases⟩
      | succ i =>
          rw [List.getElem?_cons_succ] at he'
          obtain ⟨k, x, hik, hkj, hx, hreleases⟩ := ih (Nat.lt_of_succ_lt_succ hij) he he'
          exact ⟨k + 1, x, Nat.succ_lt_succ hik, Nat.succ_lt_succ hkj, hx, hreleases⟩

/-- Calls that are made and statements that are executed in turn, each statement for the activity at
its place among those that are under way. -/
def schedule (s : Store) (turns : List (Call ⊕ Nat)) :
    List (Store × Activity) × List Activity × Store :=
  turns.foldl (fun (log, under, s) turn =>
    match turn with
    | .inl c => (log, .ofCall c :: under, s)
    | .inr i =>
      match under[i]? with
      | none => (log, under, s)
      | some a => ((s, a) :: log, under.take i ++ (a.rest s).toList ++ under.drop (i + 1), a.after s))
    ([], [], s)

theorem of_schedule (s : Store) (turns : List (Call ⊕ Nat)) :
    Interleaving (schedule s turns).1 (schedule s turns).2.1 (schedule s turns).2.2 := by
  refine List.foldlRecOn
    (motive := fun h : List (Store × Activity) × List Activity × Store =>
      Interleaving h.1 h.2.1 h.2.2) turns _ .start ?_
  rintro ⟨log, under, s⟩ h turn -
  cases turn with
  | inl c => exact .call c h
  | inr i =>
      cases hi : under[i]? with
      | none =>
          simp only [hi]
          exact h
      | some a =>
          simp only [hi]
          exact .step i hi h

end Interleaving

/-- However the statements of calls interleave, between two claims of a job something took it out of
processing. A worker that asks for a job while nobody else does gets none exactly when none is ready,
and otherwise the first one; as long as years have four digits, that is the one that was queued
first, and of those that were queued at the same time the one with the least id. -/
theorem no_double_claim {log : List (Store × Activity)} {under : List Activity} {s : Store}
    (h : Interleaving log under s) :
    (∀ id (i j : Nat) (e e' : Store × Activity), i < j → log[j]? = some e → log[i]? = some e' →
      e.2.claims e.1 id = true → e'.2.claims e'.1 id = true →
        ∃ (k : Nat) (x : Store × Activity), i < k ∧ k < j ∧ log[k]? = some x ∧
          x.2.releases x.1 id = true) ∧
    (s.catalog.Complete →
      ((dequeue s).1 = .ok none ↔
        ∀ id row, s.catalog.jobs.get? id = some row → row.isReady s.clock = false) ∧
      ((dequeue s).1 ≠ .ok none →
        ∃ row job, (dequeue s).1 = .ok (some job) ∧ Served s row job (dequeue s).2 ∧
          (StoredTime.isPlain row.queuedAt = true → ∀ id' row',
            s.catalog.jobs.get? id' = some row' → row'.isReady s.clock = true →
              StoredTime.isPlain row'.queuedAt = true → id' ≠ job.id →
                row.queuedAt < row'.queuedAt ∨
                  row.queuedAt = row'.queuedAt ∧ job.id < id'))) := by
  constructor
  · intro id i j e e' hij he he' hclaim hclaim'
    exact h.released_between_claims hij he he' hclaim hclaim'
  · intro hs
    rcases dequeue_cases_first hs with ⟨hnone, hidle⟩ | ⟨row, job, t, hsome, hserved⟩
    · rw [hnone]
      exact ⟨iff_of_true rfl hidle, fun hne => absurd rfl hne⟩
    · rw [hsome]
      refine ⟨iff_of_false (fun h => by cases h) fun hidle => ?_, fun _ => ?_⟩
      · have hready := hserved.first.ready
        rw [hidle job.id row hserved.first.stored] at hready
        cases hready
      · refine ⟨row, job, rfl, hserved, fun hplain id' row' hrow hready hplain' hne => ?_⟩
        exact hserved.first.earliest hplain hrow hready hplain' hne

/-- Two workers see the same job, and the one that comes too late gets it only after the other one
has lost it. -/
theorem no_double_claim_of_two_workers :
    let h := Interleaving.schedule Sample.idle [.inl (.enqueue 1), .inr 0, .inl .dequeue,
      .inl .dequeue, .inr 0, .inr 1, .inr 0, .inr 1, .inl (.resetStalled ⟨0⟩ ⟨1000000000⟩ 1), .inr 0,
      .inr 0, .inr 1, .inr 1]
    h.1.map (fun e => e.2.claims e.1 1) =
        [true, false, false, false, false, true, false, false, false] ∧
      (∃ (k : Nat) (x : Store × Activity), 0 < k ∧ k < 5 ∧ h.1[k]? = some x ∧
        x.2.releases x.1 1 = true) ∧
      (dequeue h.2.2).1 = .ok none := by
  intro h
  have hclaimed : h.1.map (fun e => e.2.claims e.1 1) =
      [true, false, false, false, false, true, false, false, false] := by
    decide
  have hinter : Interleaving h.1 h.2.1 h.2.2 := Interleaving.of_schedule _ _
  obtain ⟨hreleased, halone⟩ := no_double_claim hinter
  have hcomplete : h.2.2.catalog.Complete := by
    intro t
    cases t <;> decide
  have hidle : ∀ e ∈ h.2.2.catalog.jobs.toList, e.2.isReady h.2.2.clock = false := by
    decide
  have hat : ∀ k : Nat, (h.1[k]?).map (fun e : Store × Activity => e.2.claims e.1 1) =
      [true, false, false, false, false, true, false, false, false][k]? := by
    intro k
    rw [← hclaimed, List.getElem?_map]
  obtain ⟨e, he, hclaim⟩ := Option.map_eq_some_iff.mp (hat 5)
  obtain ⟨e', he', hclaim'⟩ := Option.map_eq_some_iff.mp (hat 0)
  refine ⟨hclaimed, hreleased 1 0 5 e e' (by decide) he he' hclaim hclaim', ?_⟩
  exact (halone hcomplete).1.mpr fun id row hrow =>
    hidle (id, row) (Table.get?_eq_some_iff.mp hrow)

end RepoCatalog.Queue
