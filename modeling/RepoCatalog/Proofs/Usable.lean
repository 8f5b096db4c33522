import Mathlib.Data.List.Basic
import RepoCatalog.Worker

/-!
# Settings that can be used

Settings that are accepted can be used as long as their times are not too long: a number of seconds
is read as a signed number, it has to fit a length of time, and the time of the next visit has to
fit the calendar. The rules for settings only refuse zero.
-/
namespace RepoCatalog

open Time (Duration Instant)

namespace Time

def Duration.lasting (n : Nat) : Duration :=
  ⟨n * nanosecondsPerSecond⟩

theorem Duration.lasting_pos_iff {n : Nat} : (⟨0⟩ : Duration) < lasting n ↔ 0 < n := by
  change (0 : Int) < n * 1000000000 ↔ 0 < n
  omega

theorem Duration.ofSeconds?_eq_lasting_iff {seconds : Int} {n : Nat} :
    ofSeconds? seconds = some (lasting n) ↔ seconds = n ∧ (n : Int) ≤ mostSeconds := by
  have hmost : mostSeconds = 9223372036854775 := rfl
  have hsecond : nanosecondsPerSecond = 1000000000 := rfl
  unfold ofSeconds? lasting
  simp only [hmost, hsecond, Option.ite_none_right_eq_some, Option.some.injEq, mk.injEq]
  omega

def Instant.earliestReading : Instant :=
  .ofDate ⟨2000, 1, 1⟩

def Instant.readingBound : Instant :=
  .ofDate ⟨2101, 1, 1⟩

/-- How many seconds the calendar goes on after the year 2100. -/
def Instant.secondsLeft : Int :=
  (bound.nanoseconds - readingBound.nanoseconds) / Duration.nanosecondsPerSecond

/-- From every reading of the clock in the years 2000 to 2100, a length of time stays in the
calendar exactly if it stays in it from the last one. -/
theorem Instant.add?_lasting_iff {n : Nat} :
    (∀ now, earliestReading ≤ now → now < readingBound →
      (now.add? (.lasting n)).isSome = true) ↔ (n : Int) ≤ secondsLeft := by
  have hfirst : first.nanoseconds = -8334601228800000000000 := rfl
  have hbound : bound.nanoseconds = 8210266876800000000000 := rfl
  have hearliest : earliestReading.nanoseconds = 946684800000000000 := rfl
  have hlatest : readingBound.nanoseconds = 4133980800000000000 := rfl
  have hleft : secondsLeft = 8206132896000 := rfl
  have hsome : ∀ now : Instant, (now.add? (.lasting n)).isSome = true ↔
      first.nanoseconds ≤ now.nanoseconds + n * 1000000000 ∧
        now.nanoseconds + n * 1000000000 < bound.nanoseconds := by
    intro now
    unfold add? inRange
    simp only [Option.isSome_ite, Bool.and_eq_true, decide_eq_true_iff]
    rfl
  simp only [hsome, hfirst, hbound, hleft]
  constructor
  · intro h
    obtain ⟨-, hend⟩ := h ⟨readingBound.nanoseconds - 1⟩
      (by change earliestReading.nanoseconds ≤ readingBound.nanoseconds - 1; omega)
      (by change readingBound.nanoseconds - 1 < readingBound.nanoseconds; omega)
    change readingBound.nanoseconds - 1 + n * 1000000000 < 8210266876800000000000 at hend
    omega
  · intro h now hearly hlate
    change earliestReading.nanoseconds ≤ now.nanoseconds at hearly
    change now.nanoseconds < readingBound.nanoseconds at hlate
    omega

end Time

namespace SyncSettings

theorem signedSeconds_cases (n : Nat) :
    signedSeconds n = n ∨ (9223372036854775807 : Int) < n ∧ signedSeconds n ≠ n := by
  have hpow : ((Nat.pow 2 64 : Nat) : Int) = 18446744073709551616 := rfl
  have hcast : Int.ofNat n = (n : Int) := rfl
  unfold signedSeconds
  rw [Int.bmod_def, hpow, hcast]
  split
  · omega
  · omega

/-- A number of seconds is read as what it is exactly if a length of time can hold it. -/
theorem ofSeconds?_signedSeconds_iff {n : Nat} :
    Duration.ofSeconds? (signedSeconds n) = some (.lasting n) ↔ (n : Int) ≤ Duration.mostSeconds := by
  rw [Duration.ofSeconds?_eq_lasting_iff]
  constructor
  · exact And.right
  · intro hheld
    refine ⟨(signedSeconds_cases n).resolve_right ?_, hheld⟩
    rintro ⟨hlarge, -⟩
    have hmost : Duration.mostSeconds = 9223372036854775 := rfl
    omega

end SyncSettings

theorem Worker.lengthOf_iff {ε : Type} {d? : Option Duration} {d : Duration} (w : World) :
    (Worker.lengthOf d? : Effect ε Duration) w = (.ok d, w) ↔ d? = some d := by
  cases d? with
  | none =>
      constructor
      · intro h
        cases h
      · intro h
        cases h
  | some e =>
      constructor
      · intro h
        cases h
        rfl
      · intro h
        cases h
        rfl

theorem Worker.secondsOf_iff {n : Nat} (w : World) :
    Worker.secondsOf n w = (.ok (.lasting n), w) ↔ (n : Int) ≤ Duration.mostSeconds := by
  rw [← SyncSettings.ofSeconds?_signedSeconds_iff, Worker.secondsOf, Worker.lengthOf_iff]

namespace Settings

variable {s : Settings}

theorem checkPositive_ok_iff {fields : List (String × Nat)} :
    checkPositive fields = .ok () ↔ ∀ x ∈ fields, 0 < x.2 := by
  induction fields with
  | nil => simp [checkPositive]
  | cons x fields ih =>
      obtain ⟨field, n⟩ := x
      unfold checkPositive
      rw [List.forall_mem_cons, ← ih]
      split
      · rename_i hzero
        simp [hzero]
      · rename_i hpos
        simp [Nat.pos_of_ne_zero hpos]

theorem parts_of_validate (h : s.validate = .ok ()) :
    s.sync.validate = .ok () ∧ s.worker.validate = .ok () := by
  unfold validate at h
  simp only [bind, Except.bind] at h
  split at h
  · cases h
  · split at h
    · cases h
    · split at h
      · cases h
      · rename_i hsync
        exact ⟨hsync, h⟩

theorem positive_of_validate (h : s.validate = .ok ()) :
    0 < s.sync.minSyncInterval ∧ 0 < s.worker.stalledMaxAge ∧ 0 < s.worker.jobRetention := by
  obtain ⟨hsync, hworker⟩ := parts_of_validate h
  unfold SyncSettings.validate at hsync
  split at hsync
  · cases hsync
  · have hfields := checkPositive_ok_iff.mp hsync
    have hfields' := checkPositive_ok_iff.mp hworker
    exact ⟨hfields ("MIN_SYNC_INTERVAL_SECONDS", s.sync.minSyncInterval) (by simp),
      hfields' ("STALLED_MAX_AGE_SECONDS", s.worker.stalledMaxAge) (by simp),
      hfields' ("JOB_RETENTION_SECONDS", s.worker.jobRetention) (by simp)⟩

/-- Settings can be used if their times are held as what they are, and if the time of the next visit
can be told after a first pass in the years 2000 to 2100. -/
structure Usable (s : Settings) : Prop where
  least : s.sync.leastInterval? = some (.lasting s.sync.minSyncInterval)
  age : ∀ w, Worker.secondsOf s.worker.stalledMaxAge w = (.ok (.lasting s.worker.stalledMaxAge), w)
  retention : ∀ w,
    Worker.secondsOf s.worker.jobRetention w = (.ok (.lasting s.worker.jobRetention), w)
  positive : (⟨0⟩ : Duration) < .lasting s.sync.minSyncInterval ∧
    (⟨0⟩ : Duration) < .lasting s.worker.stalledMaxAge ∧
    (⟨0⟩ : Duration) < .lasting s.worker.jobRetention
  visits : ∀ now, Instant.earliestReading ≤ now → now < Instant.readingBound →
    ∀ least, s.sync.leastInterval? = some least →
      (∀ d, (now.add? (Resync.afterBatch now none least d)).isSome = true) ∧
      ∀ modified errored,
        (now.add? (Resync.afterStream now none least modified errored)).isSome = true

/-- Settings that are accepted can be used exactly if their times are short enough. -/
theorem usable_iff (h : s.validate = .ok ()) : s.Usable ↔
    (s.sync.minSyncInterval : Int) ≤ Instant.secondsLeft ∧
      (s.worker.stalledMaxAge : Int) ≤ Duration.mostSeconds ∧
      (s.worker.jobRetention : Int) ≤ Duration.mostSeconds := by
  have hfits : Instant.secondsLeft ≤ Duration.mostSeconds := by decide
  constructor
  · intro hu
    let w : World := Inhabited.default
    refine ⟨Instant.add?_lasting_iff.mp fun now hearly hlate => ?_,
      (Worker.secondsOf_iff w).mp (hu.age w), (Worker.secondsOf_iff w).mp (hu.retention w)⟩
    exact (hu.visits now hearly hlate _ hu.least).1 .empty
  · rintro ⟨hinterval, hage, hretention⟩
    have hleast : s.sync.leastInterval? = some (.lasting s.sync.minSyncInterval) :=
      SyncSettings.ofSeconds?_signedSeconds_iff.mpr (Int.le_trans hinterval hfits)
    obtain ⟨hminimum, hstalled, hkept⟩ := positive_of_validate h
    refine ⟨hleast, fun w => (Worker.secondsOf_iff w).mpr hage,
      fun w => (Worker.secondsOf_iff w).mpr hretention,
      ⟨Duration.lasting_pos_iff.mpr hminimum, Duration.lasting_pos_iff.mpr hstalled,
        Duration.lasting_pos_iff.mpr hkept⟩, fun now hearly hlate least hsome => ?_⟩
    obtain rfl := Option.some.inj (hleast.symm.trans hsome)
    have hnext := Instant.add?_lasting_iff.mpr hinterval now hearly hlate
    exact ⟨fun d => hnext, fun modified errored => hnext⟩

/-- Settings with the longest times with which they can be used. -/
def slowest : Settings :=
  { Settings.default with
    sync := { SyncSettings.default with minSyncInterval := 8206132896000 }
    worker := { WorkerSettings.default with
      stalledMaxAge := 9223372036854775
      jobRetention := 9223372036854775 } }

theorem usable_slowest : slowest.validate = .ok () ∧ slowest.Usable := by
  have hvalid : slowest.validate = .ok () := by decide
  exact ⟨hvalid, (usable_iff hvalid).mpr (by decide)⟩

/-- Settings with the largest minimum interval that can be written. -/
def patient : Settings :=
  { Settings.default with
    sync := { SyncSettings.default with minSyncInterval := 18446744073709551615 } }

/-- The largest minimum interval is accepted and read as a negative one. -/
theorem patience_wraps_around : patient.validate = .ok () ∧
    patient.sync.leastInterval? = some ⟨-1000000000⟩ ∧ ¬patient.Usable := by
  have hleast : patient.sync.leastInterval? = some ⟨-1000000000⟩ := by decide
  refine ⟨by decide, hleast, fun hu => ?_⟩
  have hsame := Option.some.inj (hleast.symm.trans hu.least)
  exact absurd hsame (by decide)

end Settings

end RepoCatalog
