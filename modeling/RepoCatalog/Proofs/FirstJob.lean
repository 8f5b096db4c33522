import Mathlib.Data.Int.DivMod
import Mathlib.Data.String.Basic
import RepoCatalog.Proofs.Flight
import RepoCatalog.Proofs.Timestamp

/-!
# The first job

Times are stored as text and compare as text. That is the order of time only as long as years have
four digits, but it is an order of all times: those with a sign come before those without. So among
the jobs that are ready there is always one that comes first, and it is the one that is claimed.
-/
namespace RepoCatalog

open Time (Date Duration Instant)
open Text

namespace StoredTime

variable {a b c t : Instant}

theorem text_eq_year (t : Instant) :
    ∃ rest, (text t).toList = (Time.Timestamp.yearText t.year).toList ++ rest := by
  have hdays : (t.nanoseconds.fdiv Duration.nanosecondsPerSecond).fdiv Instant.secondsPerDay =
      t.nanoseconds.fdiv (Instant.secondsPerDay * Duration.nanosecondsPerSecond) := by
    rw [Int.fdiv_fdiv_eq_fdiv_mul _ (by decide) (by decide), Int.mul_comm]
  unfold text Time.Timestamp.writeIn Instant.year
  rw [← hdays]
  simp only [String.toList_append, List.append_assoc]
  exact ⟨_, rfl⟩

theorem isPlain_iff : isPlain t = true ↔ 0 ≤ t.year ∧ t.year ≤ 9999 := by
  simp only [isPlain, Bool.and_eq_true, decide_eq_true_eq]

theorem text_of_plain (h : isPlain t = true) :
    ∃ d ds, (text t).toList = d :: ds ∧ d.isDigit = true := by
  obtain ⟨rest, htext⟩ := text_eq_year t
  obtain ⟨d, ds, hyear, hdigit⟩ := Decimal.padded_head 4 t.year.toNat
  unfold Time.Timestamp.yearText at htext
  rw [if_pos (isPlain_iff.mp h), hyear] at htext
  exact ⟨d, ds ++ rest, htext, hdigit⟩

theorem text_of_signed (h : isPlain t = false) :
    ∃ sign cs, (text t).toList = sign :: cs ∧ (sign = '-' ∨ sign = '+') := by
  obtain ⟨rest, htext⟩ := text_eq_year t
  have hout : ¬(0 ≤ t.year ∧ t.year ≤ 9999) := by
    rw [← isPlain_iff, h]
    exact Bool.false_ne_true
  unfold Time.Timestamp.yearText at htext
  rw [if_neg hout] at htext
  by_cases hneg : t.year < 0
  · rw [if_pos hneg, String.toList_append] at htext
    exact ⟨'-', _, htext, .inl rfl⟩
  · rw [if_neg hneg, String.toList_append] at htext
    exact ⟨'+', _, htext, .inr rfl⟩

theorem text_lt_text (ha : isPlain a = false) (hb : isPlain b = true) : text a < text b := by
  obtain ⟨sign, cs, hatext, hsign⟩ := text_of_signed ha
  obtain ⟨d, ds, hbtext, hdigit⟩ := text_of_plain hb
  have hzero : '0' ≤ d := by
    simp only [Char.isDigit, Bool.and_eq_true, decide_eq_true_eq] at hdigit
    exact hdigit.1
  have hlt : sign < '0' := by
    rcases hsign with rfl | rfl
    · decide
    · decide
  rw [String.lt_iff_toList_lt, hatext, hbtext, List.cons_lt_cons_iff]
  exact .inl (lt_of_lt_of_le hlt hzero)

theorem before_of_plain (ha : isPlain a = true) (hb : isPlain b = true) :
    before a b = true ↔ a < b := by
  simp only [before, ha, hb, Bool.and_self, if_true, decide_eq_true_eq]

theorem before_of_signed (h : isPlain a = false ∨ isPlain b = false) :
    before a b = true ↔ text a < text b := by
  have hand : (isPlain a && isPlain b) = false := by
    rcases h with h | h
    · rw [h, Bool.false_and]
    · rw [h, Bool.and_false]
  simp only [before, hand, Bool.false_eq_true, if_false, decide_eq_true_eq]

theorem before_asymm (h : before a b = true) : before b a = false := by
  rw [Bool.eq_false_iff]
  intro h'
  by_cases hplain : isPlain a = true ∧ isPlain b = true
  · have hab := (before_of_plain hplain.1 hplain.2).mp h
    have hba := (before_of_plain hplain.2 hplain.1).mp h'
    exact Int.lt_asymm hab hba
  · rw [not_and_or, Bool.not_eq_true, Bool.not_eq_true] at hplain
    exact lt_asymm ((before_of_signed hplain).mp h) ((before_of_signed hplain.symm).mp h')

theorem before_or_before (b : Instant) (h : before a c = true) :
    before a b = true ∨ before b c = true := by
  cases ha : isPlain a with
  | false =>
      cases hb : isPlain b with
      | true => exact .inl ((before_of_signed (.inl ha)).mpr (text_lt_text ha hb))
      | false =>
          rw [before_of_signed (.inl ha)] at h ⊢
          rw [before_of_signed (.inl hb)]
          rcases lt_or_ge (text a) (text b) with hab | hba
          · exact .inl hab
          · exact .inr (lt_of_le_of_lt hba h)
  | true =>
      cases hc : isPlain c with
      | false =>
          rw [before_of_signed (.inr hc)] at h
          exact absurd (text_lt_text hc ha) (lt_asymm h)
      | true =>
          cases hb : isPlain b with
          | false => exact .inr ((before_of_signed (.inl hb)).mpr (text_lt_text hb hc))
          | true =>
              rw [before_of_plain ha hc] at h
              rw [before_of_plain ha hb, before_of_plain hb hc]
              change a.nanoseconds < c.nanoseconds at h
              change a.nanoseconds < b.nanoseconds ∨ b.nanoseconds < c.nanoseconds
              omega

end StoredTime

namespace Queue

variable {α : Type} {a b c : Int × JobRow}

theorem precedes_iff : precedes a b = true ↔ StoredTime.before a.2.queuedAt b.2.queuedAt = true ∨
    StoredTime.before b.2.queuedAt a.2.queuedAt = false ∧ a.1 < b.1 := by
  simp only [precedes, Bool.or_eq_true, Bool.and_eq_true, Bool.not_eq_true', decide_eq_true_eq]

theorem precedes_asymm (h : precedes a b = true) : precedes b a = false := by
  rw [Bool.eq_false_iff]
  intro h'
  rw [precedes_iff] at h h'
  rcases h with hbefore | ⟨hnot, hid⟩
  · rcases h' with hbefore' | ⟨hnot', -⟩
    · exact Bool.false_ne_true ((StoredTime.before_asymm hbefore).symm.trans hbefore')
    · exact Bool.false_ne_true (hnot'.symm.trans hbefore)
  · rcases h' with hbefore' | ⟨-, hid'⟩
    · exact Bool.false_ne_true (hnot.symm.trans hbefore')
    · exact Int.lt_asymm hid hid'

theorem not_precedes_iff : precedes a b = false ↔
    StoredTime.before a.2.queuedAt b.2.queuedAt = false ∧
      (StoredTime.before b.2.queuedAt a.2.queuedAt = true ∨ b.1 ≤ a.1) := by
  rw [← Bool.not_eq_true, precedes_iff, not_or, not_and_or, Bool.not_eq_true, Bool.not_eq_false,
    Int.not_lt]

theorem not_precedes_trans (hab : precedes a b = false) (hbc : precedes b c = false) :
    precedes a c = false := by
  rw [not_precedes_iff] at hab hbc ⊢
  obtain ⟨hab, hba | hba⟩ := hab
  · have hca := (StoredTime.before_or_before c.2.queuedAt hba).resolve_left
      (Bool.eq_false_iff.mp hbc.1)
    exact ⟨StoredTime.before_asymm hca, .inl hca⟩
  · obtain ⟨hbc, hcb | hcb⟩ := hbc
    · have hca := (StoredTime.before_or_before a.2.queuedAt hcb).resolve_right
        (Bool.eq_false_iff.mp hab)
      exact ⟨StoredTime.before_asymm hca, .inl hca⟩
    · refine ⟨Bool.eq_false_iff.mpr fun hac => ?_, .inr (Int.le_trans hcb hba)⟩
      rcases StoredTime.before_or_before b.2.queuedAt hac with h | h
      · exact Bool.false_ne_true (hab.symm.trans h)
      · exact Bool.false_ne_true (hbc.symm.trans h)

theorem precedes_of_not_precedes (h : precedes a b = false) (hne : a.1 ≠ b.1) :
    precedes b a = true := by
  obtain ⟨hab, hba | hle⟩ := not_precedes_iff.mp h
  · exact precedes_iff.mpr (.inl hba)
  · exact precedes_iff.mpr (.inr ⟨hab, lt_of_le_of_ne hle hne.symm⟩)

/-- As long as years have four digits, jobs are claimed in the order of the times at which they were
queued, and those of the same time in the order of their ids. -/
theorem precedes_iff_of_plain (ha : StoredTime.isPlain a.2.queuedAt = true)
    (hb : StoredTime.isPlain b.2.queuedAt = true) : precedes a b = true ↔
      a.2.queuedAt < b.2.queuedAt ∨ a.2.queuedAt = b.2.queuedAt ∧ a.1 < b.1 := by
  have hsame : a.2.queuedAt = b.2.queuedAt ↔
      a.2.queuedAt.nanoseconds = b.2.queuedAt.nanoseconds := by
    cases a.2.queuedAt
    cases b.2.queuedAt
    rw [Instant.mk.injEq]
  have hlt : ∀ x y : Instant, x < y ↔ x.nanoseconds < y.nanoseconds := fun _ _ => Iff.rfl
  rw [precedes_iff, StoredTime.before_of_plain ha hb, ← Bool.not_eq_true,
    StoredTime.before_of_plain hb ha, hsame, hlt, hlt]
  omega

/-- The job that comes first among those that were seen, when one more is seen. -/
def pick (best : Option (Int × JobRow)) (e : Int × JobRow) : Option (Int × JobRow) :=
  match best with
  | none => some e
  | some b => if precedes e b then some e else some b

theorem next?_eq (c : Catalog) (now : Instant) :
    next? c now = (c.jobs.toList.filter fun e => e.2.isReady now).foldl pick none :=
  rfl

theorem foldl_pick_first {best : Option (Int × JobRow)} {as : List (Int × JobRow)}
    {m : Int × JobRow} (h : as.foldl pick best = some m) :
    (∀ a ∈ as, precedes a m = false) ∧ ∀ b ∈ best, precedes b m = false := by
  induction as generalizing best with
  | nil =>
      refine ⟨fun a ha => (by cases ha), fun b hb => ?_⟩
      cases Option.some.inj (h.symm.trans hb)
      exact Bool.eq_false_iff.mpr fun hself =>
        Bool.false_ne_true ((precedes_asymm hself).symm.trans hself)
  | cons a as ih =>
      obtain ⟨hrest, hbest⟩ := ih h
      cases best with
      | none => exact ⟨List.forall_mem_cons.mpr ⟨hbest a rfl, hrest⟩, fun b hb => by cases hb⟩
      | some b =>
          cases hab : precedes a b with
          | true =>
              have ham : precedes a m = false := hbest a (if_pos hab)
              have hbm := not_precedes_trans (precedes_asymm hab) ham
              exact ⟨List.forall_mem_cons.mpr ⟨ham, hrest⟩, fun _ hb => by cases hb; exact hbm⟩
          | false =>
              have hbm : precedes b m = false := hbest b (if_neg (Bool.eq_false_iff.mp hab))
              have ham := not_precedes_trans hab hbm
              exact ⟨List.forall_mem_cons.mpr ⟨ham, hrest⟩, fun _ hb => by cases hb; exact hbm⟩

theorem isSome_foldl_pick {as : List (Int × JobRow)} (b : Int × JobRow) :
    (as.foldl pick (some b)).isSome = true := by
  induction as generalizing b with
  | nil => rfl
  | cons a as ih =>
      rw [List.foldl_cons, pick]
      split
      · exact ih a
      · exact ih b

/-- The job is ready, and comes before all others that are. -/
structure IsFirst (c : Catalog) (now : Instant) (id : Int) (row : JobRow) : Prop where
  stored : c.jobs.get? id = some row
  ready : row.isReady now = true
  first : ∀ id' row', c.jobs.get? id' = some row' → row'.isReady now = true → id' ≠ id →
    precedes (id, row) (id', row') = true

theorem isFirst_of_next? {c : Catalog} {now : Instant} {id : Int} {row : JobRow}
    (h : next? c now = some (id, row)) : IsFirst c now id row := by
  obtain ⟨hmem, hready⟩ := mem_of_next? h
  refine ⟨Table.get?_eq_some_iff.mpr hmem, hready, fun id' row' hrow' hready' hne => ?_⟩
  have hmem' : (id', row') ∈ c.jobs.toList.filter fun e => e.2.isReady now :=
    List.mem_filter.mpr ⟨Table.get?_eq_some_iff.mp hrow', hready'⟩
  exact precedes_of_not_precedes ((foldl_pick_first h).1 _ hmem') hne

/-- As long as years have four digits, the first job is the one that was queued first, and of those
that were queued at the same time the one with the least id. -/
theorem IsFirst.earliest {c : Catalog} {now : Instant} {id id' : Int} {row row' : JobRow}
    (h : IsFirst c now id row) (hplain : StoredTime.isPlain row.queuedAt = true)
    (hrow : c.jobs.get? id' = some row') (hready : row'.isReady now = true)
    (hplain' : StoredTime.isPlain row'.queuedAt = true) (hne : id' ≠ id) :
    row.queuedAt < row'.queuedAt ∨ row.queuedAt = row'.queuedAt ∧ id < id' := by
  have hprecedes := h.first id' row' hrow hready hne
  exact (@precedes_iff_of_plain (id, row) (id', row') hplain hplain').mp hprecedes

theorem next?_eq_none_iff {c : Catalog} {now : Instant} : next? c now = none ↔
    ∀ id row, c.jobs.get? id = some row → row.isReady now = false := by
  constructor
  · intro h id row hrow
    rw [Bool.eq_false_iff]
    intro hready
    have hmem : (id, row) ∈ c.jobs.toList.filter fun e => e.2.isReady now :=
      List.mem_filter.mpr ⟨Table.get?_eq_some_iff.mp hrow, hready⟩
    rw [next?_eq] at h
    cases hlist : c.jobs.toList.filter fun e => e.2.isReady now with
    | nil =>
        rw [hlist] at hmem
        cases hmem
    | cons e es =>
        rw [hlist, List.foldl_cons] at h
        exact Option.isSome_iff_ne_none.mp (isSome_foldl_pick e) h
  · intro h
    cases hnext : next? c now with
    | none => rfl
    | some e =>
        obtain ⟨hmem, hready⟩ := mem_of_next? hnext
        rw [h e.1 e.2 (Table.get?_eq_some_iff.mpr hmem)] at hready
        cases hready

variable {s : Store}

/-- The first job is claimed and handed out, and nothing else changes but the time. -/
structure Served (s : Store) (row : JobRow) (job : Job) (t : Store) : Prop where
  first : IsFirst s.catalog s.clock job.id row
  handed : ∃ seen, row.toJob? job.id = .ok seen ∧ job = { seen with
    state := .processing
    startedAt := some s.clock
    nextSyncAt := (s.catalog.services.get? row.service).bind (·.nextSyncAt) }
  after : t = { s.tick with
    catalog := (s.catalog.changeJobs (fun k _ => k == job.id) (claimedRow s.clock)).2 }
  claimed : t.catalog.jobs.get? job.id = some (claimedRow s.clock row)
  others : ∀ id, id ≠ job.id → t.catalog.jobs.get? id = s.catalog.jobs.get? id

theorem dequeue_cases_first (hs : s.catalog.Complete) :
    (dequeue s = (.ok none, s.tick) ∧
        ∀ id row, s.catalog.jobs.get? id = some row → row.isReady s.clock = false) ∨
      ∃ row job t, dequeue s = (.ok (some job), t) ∧ Served s row job t := by
  cases hnext : next? s.catalog s.clock with
  | none => exact .inl ⟨dequeue_of_none hs hnext, next?_eq_none_iff.mp hnext⟩
  | some e =>
      obtain ⟨id, row⟩ := e
      have hfirst := isFirst_of_next? hnext
      obtain ⟨seen, hseen, hid, hservice⟩ := toJob?_ok id (inFlight_of_ready hfirst.ready)
      subst hid
      have hafter := Catalog.get?_changedJobs s.catalog (fun k _ => k == seen.id) (claimedRow s.clock)
      refine .inr ⟨row, _, _, dequeue_of_next hs hnext hseen, hfirst, ⟨seen, hseen, ?_⟩, rfl, ?_, ?_⟩
      · rw [hservice]
      · refine (hafter seen.id).trans ?_
        rw [hfirst.stored, Option.map_some, beq_self_eq_true, if_pos rfl]
        rfl
      · intro id hne
        refine (hafter id).trans ?_
        simp only [beq_iff_eq, if_neg hne, Option.map_id']

end Queue

end RepoCatalog
