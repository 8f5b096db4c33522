import Mathlib.Order.Basic
import RepoCatalog.Resync

/-!
# Bounds of the back-off

The next visit comes after the minimum interval at least, after eight hours or the minimum at most,
and the later the longer the service was left alone. A minimum of more than eight hours is
undercut, though: the upper end of the range is applied last, so that a long wait leads back to
eight hours.
-/
namespace RepoCatalog

namespace Time.Duration

theorem le_iff {a b : Duration} : a ≤ b ↔ a.nanoseconds ≤ b.nanoseconds :=
  Iff.rfl

theorem lt_iff {a b : Duration} : a < b ↔ a.nanoseconds < b.nanoseconds :=
  Iff.rfl

@[simp]
theorem nanoseconds_double (d : Duration) : d.double.nanoseconds = d.nanoseconds * 2 :=
  rfl

end Time.Duration

namespace Resync

open Time Time.Duration

/-- Whether the minimum is more than the longest interval, and twice the time since the last pass
is not less than the minimum. -/
def Undercuts (now last : Instant) (least : Duration) : Prop :=
  longest < least ∧ least ≤ (now.since last).double

section

variable {now now' last last' : Instant} {least : Duration}

theorem undercuts_iff : Undercuts now last least ↔ longest.nanoseconds < least.nanoseconds ∧
    least.nanoseconds ≤ (now.since last).nanoseconds * 2 :=
  Iff.rfl

theorem Undercuts.mono (h : Undercuts now last least) (hwait : now.since last ≤ now'.since last') :
    Undercuts now' last' least := by
  rw [le_iff] at hwait
  rw [undercuts_iff] at h ⊢
  omega

theorem not_undercuts (h : least ≤ longest) : ¬Undercuts now last least := by
  rw [le_iff] at h
  rw [undercuts_iff]
  omega

theorem backOff_of_undercuts (h : Undercuts now last least) :
    backOff now last least = longest := by
  rw [undercuts_iff] at h
  simp only [backOff, lt_iff, nanoseconds_double]
  rw [if_neg (by omega), if_pos (by omega)]

theorem backOff_of_not_undercuts (h : ¬Undercuts now last least) :
    (backOff now last least).nanoseconds =
      max least.nanoseconds (min ((now.since last).nanoseconds * 2) longest.nanoseconds) := by
  rw [undercuts_iff] at h
  simp only [backOff, lt_iff, nanoseconds_double]
  split
  case isTrue hlow => omega
  case isFalse hlow =>
    split
    case isTrue hhigh => omega
    case isFalse hhigh =>
      rw [nanoseconds_double]
      omega

theorem backOff_le (now last : Instant) (least : Duration) :
    backOff now last least ≤ least ∨ backOff now last least ≤ longest := by
  simp only [le_iff]
  by_cases h : Undercuts now last least
  · rw [backOff_of_undercuts h]
    exact .inr (Int.le_refl _)
  · rw [backOff_of_not_undercuts h]
    omega

theorem least_le_backOff_iff :
    least ≤ backOff now last least ↔ ¬Undercuts now last least := by
  rw [le_iff]
  by_cases h : Undercuts now last least
  · rw [backOff_of_undercuts h]
    have hlong := (undercuts_iff.mp h).1
    simp only [h, not_true, iff_false]
    omega
  · rw [backOff_of_not_undercuts h]
    simp only [h, not_false_eq_true, iff_true]
    omega

/-- A longer wait leads to no shorter interval, unless it is what undercuts the minimum. -/
theorem backOff_le_backOff_iff (hwait : now.since last ≤ now'.since last') :
    backOff now last least ≤ backOff now' last' least ↔
      (Undercuts now' last' least → Undercuts now last least) := by
  by_cases h' : Undercuts now' last' least
  · by_cases h : Undercuts now last least
    · simp only [h, h', backOff_of_undercuts, le_iff, Int.le_refl, imp_self]
    · have hleast := least_le_backOff_iff.mpr h
      have hlong := (undercuts_iff.mp h').1
      simp only [h, h', backOff_of_undercuts, le_iff, true_imp_iff, iff_false] at hleast ⊢
      omega
  · have h : ¬Undercuts now last least := fun h => h' (h.mono hwait)
    rw [le_iff] at hwait
    rw [le_iff, backOff_of_not_undercuts h, backOff_of_not_undercuts h']
    simp only [h', false_imp_iff, iff_true]
    omega

end

/-- What holds of a choice of the interval by the clock and the time of the last pass: the bounds
and the growth, with the exact condition under which the minimum is not kept. -/
structure Bounded (least : Duration) (changed : Bool)
    (chosen : Instant → Option Instant → Duration) : Prop where
  first : ∀ now, chosen now none = least
  eager : changed = true → ∀ now last, chosen now last = least
  le_most : ∀ now last, chosen now last ≤ least ∨ chosen now last ≤ longest
  least_le_iff : ∀ now last, least ≤ chosen now last ↔
    ∀ time, last = some time → changed = false → ¬Undercuts now time least
  mono_iff : ∀ now now' last last', now.since last ≤ now'.since last' →
    (chosen now (some last) ≤ chosen now' (some last') ↔
      (changed = false → Undercuts now' last' least → Undercuts now last least))

theorem interval_bounded (least : Duration) (changed : Bool) :
    Bounded least changed fun now last => interval now last least changed where
  first now := rfl
  eager hchanged now last := by
    cases last with
    | none => rfl
    | some time => simp only [interval, hchanged, if_true]
  le_most now last := by
    cases last with
    | none => exact .inl (Int.le_refl _)
    | some time =>
        cases changed with
        | true => exact .inl (Int.le_refl _)
        | false => exact backOff_le now time least
  least_le_iff now last := by
    cases last with
    | none => simp [interval, le_iff]
    | some time =>
        cases changed with
        | true => simp [interval, le_iff]
        | false => simpa [interval] using least_le_backOff_iff
  mono_iff now now' last last' hwait := by
    cases changed with
    | true => simp [interval, le_iff]
    | false => simpa [interval] using backOff_le_backOff_iff hwait

/-- After either kind of pass the interval is bounded as far as the minimum is not undercut, which
never happens to a minimum of eight hours at most. -/
theorem chosen_bounded (least : Duration) :
    (∀ d : Diff, Bounded least d.hasChanges fun now last => afterBatch now last least d) ∧
    (∀ modified errored, Bounded least (modified && !errored) fun now last =>
      afterStream now last least modified errored) ∧
    (least ≤ longest → ∀ now last, ¬Undercuts now last least) :=
  ⟨fun d => interval_bounded least d.hasChanges,
    fun modified errored => interval_bounded least (modified && !errored),
    fun h _ _ => not_undercuts h⟩

/-- With a minimum of a minute, a quiet service waits for longer after two hours than after one. -/
theorem chosen_bounded_minute :
    let minute : Duration := ⟨60 * nanosecondsPerSecond⟩
    let hour (n : Int) : Instant := .ofSeconds (n * 3600)
    minute ≤ longest ∧ (hour 1).since (hour 0) ≤ (hour 2).since (hour 0) ∧
      minute ≤ afterBatch (hour 2) (some (hour 0)) minute ∅ ∧
      afterBatch (hour 1) (some (hour 0)) minute ∅ ≤
        afterBatch (hour 2) (some (hour 0)) minute ∅ := by
  intro minute hour
  have hleast : minute ≤ longest := by decide
  have hwait : (hour 1).since (hour 0) ≤ (hour 2).since (hour 0) := by decide
  obtain ⟨hbatch, -, hkept⟩ := chosen_bounded minute
  refine ⟨hleast, hwait, ?_, ?_⟩
  · apply ((hbatch ∅).least_le_iff _ _).mpr
    exact fun time _ _ => hkept hleast _ time
  · apply ((hbatch ∅).mono_iff _ _ _ _ hwait).mpr
    exact fun _ h => absurd h (hkept hleast _ _)

/-- With a minimum of nine hours, a quiet service waits for nine hours after four, and only for
eight after five. -/
theorem nine_hours_undercut :
    let least : Duration := ⟨9 * 3600 * nanosecondsPerSecond⟩
    let hour (n : Int) : Instant := .ofSeconds (n * 3600)
    afterBatch (hour 4) (some (hour 0)) least ∅ = least ∧
      afterBatch (hour 5) (some (hour 0)) least ∅ < least ∧
      afterStream (hour 4) (some (hour 0)) least false false = least ∧
      afterStream (hour 5) (some (hour 0)) least false false < least := by
  decide

end Resync

end RepoCatalog
