import RepoCatalog.Proofs.Calendar
import RepoCatalog.Proofs.Urn
import RepoCatalog.Time.Timestamp

/-!
# Points in time are read back

The written form of a point in time is read as that point, to the nanosecond, as long as its year
has four digits and no sign.
-/
namespace RepoCatalog

namespace Text.Decimal

variable {width n : Nat}

theorem toList_padded (width n : Nat) : (padded width n).toList =
    List.replicate (width - (Nat.toDigits 10 n).length) '0' ++ Nat.toDigits 10 n := by
  have hdigits : (toString n).toList = Nat.toDigits 10 n := by
    rw [Nat.toString_eq_repr, Nat.toList_repr]
  unfold padded
  rw [String.toList_append, String.toList_ofList, hdigits, ← String.length_toList, hdigits]

theorem isDigit_of_mem_padded {c : Char} (h : c ∈ (padded width n).toList) :
    c.isDigit = true := by
  rw [toList_padded, List.mem_append] at h
  rcases h with hzero | hdigit
  · rw [List.eq_of_mem_replicate hzero]
    rfl
  · exact Nat.isDigit_of_mem_toDigits (by decide) (by decide) hdigit

theorem ofDigitChars_zeros (k : Nat) : Nat.ofDigitChars 10 (List.replicate k '0') 0 = 0 := by
  induction k with
  | zero => rfl
  | succ k ih =>
      rw [List.replicate_succ, Nat.ofDigitChars_cons]
      exact ih

theorem ofDigitChars_padded (width n : Nat) :
    Nat.ofDigitChars 10 (padded width n).toList 0 = n := by
  rw [toList_padded, Nat.ofDigitChars_append, ofDigitChars_zeros, Nat.ofDigitChars_ten_toDigits]

theorem padded_head (width n : Nat) :
    ∃ d ds, (padded width n).toList = d :: ds ∧ d.isDigit = true := by
  cases hchars : (padded width n).toList with
  | nil =>
      rw [toList_padded] at hchars
      exact absurd (List.append_eq_nil_iff.mp hchars).2 Nat.toDigits_ne_nil
  | cons d ds => exact ⟨d, ds, rfl, isDigit_of_mem_padded (hchars ▸ List.mem_cons_self)⟩

theorem value?_padded (width n : Nat) : value? (padded width n).toList = some n := by
  have hdigits : ∀ c ∈ (padded width n).toList, c.isDigit = true :=
    fun c => isDigit_of_mem_padded
  have hvalue := valueFrom_of_digits hdigits 0
  rw [ofDigitChars_padded] at hvalue
  obtain ⟨d, ds, hchars, -⟩ := padded_head width n
  rw [hchars] at hvalue ⊢
  exact hvalue

theorem length_padded (hwidth : 0 < width) (h : n < Nat.pow 10 width) :
    (padded width n).toList.length = width := by
  have hlength : (Nat.toDigits 10 n).length ≤ width :=
    (Nat.length_toDigits_le_iff (by decide) hwidth).mpr h
  rw [toList_padded, List.length_append, List.length_replicate]
  omega

end Text.Decimal

namespace Time.Timestamp

open Text Text.Decimal

/-- That a text does not go on with a digit. -/
def NoDigit (rest : List Char) : Prop :=
  ∀ c cs, rest = c :: cs → Ascii.isDigit c = false

theorem digitRun_digits {ds rest : List Char} {width : Nat} (hds : ∀ c ∈ ds, c.isDigit = true)
    (hwidth : ds.length ≤ width)
    (hrest : ds.length = width ∨ NoDigit rest) :
    digitRun width (ds ++ rest) = (ds, rest) := by
  induction ds generalizing width with
  | nil =>
      cases width with
      | zero => rfl
      | succ width =>
          cases rest with
          | nil => rfl
          | cons c cs =>
              have hc : Ascii.isDigit c = false := by
                rcases hrest with hzero | hother
                · cases hzero
                · exact hother c cs rfl
              simp [digitRun, hc]
  | cons d ds ih =>
      cases width with
      | zero => cases hwidth
      | succ width =>
          have hd : Ascii.isDigit d = true := by
            rw [isDigit_eq]
            exact hds d List.mem_cons_self
          have htail := ih (fun c hc => hds c (List.mem_cons_of_mem d hc))
            (Nat.le_of_succ_le_succ hwidth) (hrest.imp_left Nat.succ.inj)
          simp [digitRun, hd, htail]

theorem isBlank_of_isDigit {c : Char} (h : c.isDigit = true) : isBlank c = false := by
  have hbounds : 48 ≤ c.toNat ∧ c.toNat ≤ 57 := by
    simpa [Char.isDigit, UInt32.le_iff_toNat_le] using h
  simp only [isBlank, Bool.or_eq_false_iff, Bool.and_eq_false_imp, decide_eq_true_eq,
    decide_eq_false_iff_not, beq_eq_false_iff_ne]
  omega

variable {width n least most : Nat} {rest : List Char}

theorem digitRun_padded (hwidth : 0 < width) (h : n < Nat.pow 10 width) :
    digitRun width ((padded width n).toList ++ rest) = ((padded width n).toList, rest) := by
  have hlength := length_padded hwidth h
  exact digitRun_digits (fun c => isDigit_of_mem_padded) (Nat.le_of_eq hlength) (.inl hlength)

theorem number_padded (hwidth : 0 < width) (h : n < Nat.pow 10 width) :
    number width ((padded width n).toList ++ rest) = .ok (n, rest) := by
  have hrun : digitRun width ((padded width n).toList ++ rest) = _ := digitRun_padded hwidth h
  have hvalue := value?_padded width n
  obtain ⟨d, ds, hchars, -⟩ := padded_head width n
  rw [hchars] at hrun hvalue ⊢
  rw [List.cons_append] at hrun ⊢
  simp only [number, hrun]
  change (.ok ((value? (d :: ds)).getD 0, rest) : Except Error _) = _
  rw [hvalue]
  rfl

theorem dropWhile_isBlank_padded : ((padded width n).toList ++ rest).dropWhile isBlank =
    (padded width n).toList ++ rest := by
  obtain ⟨d, ds, hchars, hdigit⟩ := padded_head width n
  rw [hchars, List.cons_append, List.dropWhile_cons_of_neg]
  rw [isBlank_of_isDigit hdigit]
  decide

theorem field_padded (hleast : least ≤ n) (hmost : n ≤ most) (h : n < 100) :
    field least most ((padded 2 n).toList ++ rest) = .ok (n, rest) := by
  unfold field
  rw [dropWhile_isBlank_padded, number_padded (by decide) h]
  change (if least ≤ n ∧ n ≤ most then _ else _) = _
  rw [if_pos ⟨hleast, hmost⟩]
  rfl

theorem literal_cons {c : Char} (h : isBlank c = false) : literal c (c :: rest) = .ok rest := by
  unfold literal
  rw [List.dropWhile_cons_of_neg (by simp [h])]
  exact if_pos rfl

theorem yearField_padded (h : n < 10000) :
    yearField ((padded 4 n).toList ++ rest) = .ok (Int.ofNat n, rest) := by
  unfold yearField
  rw [dropWhile_isBlank_padded]
  have hsign : ∀ c cs, (padded 4 n).toList ++ rest = c :: cs → c ≠ '-' ∧ c ≠ '+' := by
    intro c cs heq
    obtain ⟨d, ds, hchars, hdigit⟩ := padded_head 4 n
    rw [hchars, List.cons_append] at heq
    cases heq
    constructor <;>
    · rintro rfl
      cases hdigit
  split
  · rename_i heq
    exact absurd rfl (hsign _ _ heq).1
  · rename_i heq
    exact absurd rfl (hsign _ _ heq).2
  · rw [number_padded (by decide) h]
    rfl

theorem fractionField_padded (hpos : 0 < width) (hwidth : width ≤ 9) (h : n < Nat.pow 10 width)
    (hrest : NoDigit rest) : fractionField ('.' :: ((padded width n).toList ++ rest)) =
      .ok (n * Nat.pow 10 (9 - width), rest) := by
  have hlength := length_padded hpos h
  have hdrop : rest.dropWhile Ascii.isDigit = rest := by
    cases rest with
    | nil => rfl
    | cons c cs => simp [hrest c cs rfl]
  have hrun : digitRun 9 ((padded width n).toList ++ rest) = ((padded width n).toList, rest) :=
    digitRun_digits (fun c => isDigit_of_mem_padded) (by omega) (.inr hrest)
  have hvalue := value?_padded width n
  obtain ⟨d, ds, hchars, -⟩ := padded_head width n
  rw [hchars] at hrun hvalue hlength ⊢
  rw [List.cons_append] at hrun ⊢
  simp only [fractionField, hrun]
  change (.ok ((value? (d :: ds)).getD 0 * Nat.pow 10 (9 - (d :: ds).length),
    rest.dropWhile Ascii.isDigit) : Except Error _) = _
  rw [hvalue, hlength, hdrop]
  rfl

theorem fractionField_text (h : n < 1000000000) (hrest : NoDigit rest)
    (hpoint : ∀ cs, rest ≠ '.' :: cs) :
    fractionField ((fractionText n).toList ++ rest) = .ok (n, rest) := by
  have hpart : ∀ width m, 0 < width → width ≤ 9 → m < Nat.pow 10 width →
      m * Nat.pow 10 (9 - width) = n →
      fractionField (("." ++ Decimal.padded width m).toList ++ rest) = .ok (n, rest) := by
    intro width m hpos hwidth hm heq
    have hdot : ".".toList = ['.'] := by decide
    rw [String.toList_append, hdot, List.append_assoc, List.singleton_append,
      fractionField_padded hpos hwidth hm hrest, heq]
  unfold fractionText
  split
  · rename_i hzero
    rw [eq_of_beq hzero]
    change fractionField rest = _
    unfold fractionField
    split
    · rename_i cs
      exact absurd rfl (hpoint cs)
    · rfl
  · split
    · rename_i hmillis
      have hdvd := eq_of_beq hmillis
      have hlt : n / 1000000 < 1000 := by omega
      have hback : n / 1000000 * 1000000 = n := by omega
      exact hpart 3 (n / 1000000) (by decide) (by decide) hlt hback
    · split
      · rename_i hmicros
        have hdvd := eq_of_beq hmicros
        have hlt : n / 1000 < 1000000 := by omega
        have hback : n / 1000 * 1000 = n := by omega
        exact hpart 6 (n / 1000) (by decide) (by decide) hlt hback
      · exact hpart 9 n (by decide) (by decide) h (Nat.mul_one n)

theorem zoneField_universal : zoneField ['Z'] = .ok (0, []) := rfl

/-- The days, the seconds of the day and the nanoseconds of the second that a point in time is
written with. -/
structure Parts (t : Instant) where
  days : Int
  clock : Nat
  fraction : Nat
  sum : t.nanoseconds = (days * 86400 + clock) * 1000000000 + fraction
  clock_lt : clock < 86400
  fraction_lt : fraction < 1000000000
  year : (Date.ofDays days).year = t.year

def parts (t : Instant) : Parts t where
  days := t.nanoseconds / 1000000000 / 86400
  clock := (t.nanoseconds / 1000000000 % 86400).toNat
  fraction := (t.nanoseconds % 1000000000).toNat
  sum := by omega
  clock_lt := by omega
  fraction_lt := by omega
  year := by
    have hpos : 0 < Instant.secondsPerDay * Duration.nanosecondsPerSecond := by decide
    have hdays : t.nanoseconds / 1000000000 / 86400 =
        t.nanoseconds / (Instant.secondsPerDay * Duration.nanosecondsPerSecond) := by
      simp only [Instant.secondsPerDay, Duration.nanosecondsPerSecond]
      omega
    unfold Instant.year
    rw [Int.fdiv_eq_ediv_of_nonneg _ (Int.le_of_lt hpos), hdays]

theorem toList_write (t : Instant) : (write t).toList =
    (yearText (Date.ofDays (parts t).days).year).toList ++ '-' ::
      ((padded 2 (Date.ofDays (parts t).days).month).toList ++ '-' ::
        ((padded 2 (Date.ofDays (parts t).days).day).toList ++ 'T' ::
          ((padded 2 ((parts t).clock / 3600)).toList ++ ':' ::
            ((padded 2 ((parts t).clock / 60 % 60)).toList ++ ':' ::
              ((padded 2 ((parts t).clock % 60)).toList ++
                ((fractionText (parts t).fraction).toList ++ ['Z'])))))) := by
  have hseconds : t.nanoseconds.fdiv Duration.nanosecondsPerSecond = t.nanoseconds / 1000000000 :=
    Int.fdiv_eq_ediv_of_nonneg _ (by decide)
  have hdays : (t.nanoseconds / 1000000000).fdiv Instant.secondsPerDay = (parts t).days :=
    Int.fdiv_eq_ediv_of_nonneg _ (by decide)
  have hclock : t.nanoseconds / 1000000000 - (parts t).days * Instant.secondsPerDay =
      (parts t).clock := by
    simp only [parts, Instant.secondsPerDay]
    omega
  have hfraction : t.nanoseconds - t.nanoseconds / 1000000000 * Duration.nanosecondsPerSecond =
      (parts t).fraction := by
    simp only [parts, Duration.nanosecondsPerSecond]
    omega
  have hdash : "-".toList = ['-'] := by decide
  have hcolon : ":".toList = [':'] := by decide
  have hclocks : "T".toList = ['T'] := by decide
  have hzone : "Z".toList = ['Z'] := by decide
  simp only [write, writeIn, hseconds, hdays, hclock, hfraction, Int.toNat_natCast,
    String.toList_append, hdash, hcolon, hclocks, hzone, List.append_assoc, List.cons_append,
    List.nil_append]

theorem inRange_of_year {t : Instant} (h : 0 ≤ t.year ∧ t.year ≤ 9999) : t.inRange = true := by
  have hfirst := mt (Instant.year_lt_iff 0 t).mpr (Int.not_lt.mpr h.1)
  have hbound := (Instant.year_lt_iff 25 t).mp (Int.lt_add_one_of_le h.2)
  have hleast : Instant.first.nanoseconds ≤ (146097 * 0 - 719528) *
      (Instant.secondsPerDay * Duration.nanosecondsPerSecond) := by decide
  have hmost : (146097 * 25 - 719528) *
      (Instant.secondsPerDay * Duration.nanosecondsPerSecond) ≤ Instant.bound.nanoseconds := by
    decide
  simp only [Instant.inRange, Bool.and_eq_true, decide_eq_true_eq]
  exact ⟨Int.le_trans hleast (Int.not_lt.mp hfirst), Int.lt_of_lt_of_le hbound hmost⟩

theorem bounds_of_isValid {d : Date} (h : d.isValid = true) :
    (1 ≤ d.month ∧ d.month ≤ 12) ∧ 1 ≤ d.day ∧ d.day ≤ 31 := by
  have hlength : Date.daysInMonth d.year d.month ≤ 31 := by
    unfold Date.daysInMonth
    split
    · split <;> decide
    · split <;> decide
  simp only [Date.isValid, Bool.and_eq_true, decide_eq_true_eq] at h
  obtain ⟨⟨⟨hmonth, hmonth'⟩, hday⟩, hday'⟩ := h
  exact ⟨⟨hmonth, hmonth'⟩, hday, Nat.le_trans hday' hlength⟩

theorem instant_of_parts (t : Instant) :
    (⟨((parts t).days * Instant.secondsPerDay + Int.ofNat ((parts t).clock / 3600 * 3600 +
      (parts t).clock / 60 % 60 * 60 + (parts t).clock % 60) - 0) * Duration.nanosecondsPerSecond +
      Int.ofNat (parts t).fraction⟩ : Instant) = t := by
  have hsum := (parts t).sum
  generalize parts t = p at hsum
  have hclock : p.clock / 3600 * 3600 + p.clock / 60 % 60 * 60 + p.clock % 60 = p.clock := by omega
  cases t
  simp only [Instant.mk.injEq, hclock, Int.sub_zero, Int.ofNat_eq_natCast] at hsum ⊢
  exact hsum.symm

theorem read_write {t : Instant} (h : 0 ≤ t.year ∧ t.year ≤ 9999) : read (write t) = .ok t := by
  have hyear : 0 ≤ (Date.ofDays (parts t).days).year ∧
      (Date.ofDays (parts t).days).year ≤ 9999 := by
    rwa [(parts t).year]
  have hvalid := Date.isValid_ofDays (parts t).days
  have hback := Date.toDays_ofDays (parts t).days
  have hclock := (parts t).clock_lt
  have hchars := toList_write t
  generalize Date.ofDays (parts t).days = date at hyear hvalid hback hchars
  obtain ⟨hmonths, hdays⟩ := bounds_of_isValid hvalid
  have hyearText : yearText date.year = padded 4 date.year.toNat := if_pos hyear
  -- Each part of the text is read whatever follows it.
  have hyears : ∀ rest, yearField ((padded 4 date.year.toNat).toList ++ rest) =
      .ok (Int.ofNat date.year.toNat, rest) := fun rest => yearField_padded (by omega)
  have hdash : ∀ rest, literal '-' ('-' :: rest) = .ok rest := fun rest => literal_cons (by decide)
  have hcolon : ∀ rest, literal ':' (':' :: rest) = .ok rest := fun rest => literal_cons (by decide)
  have hmonth : ∀ rest, field 1 12 ((padded 2 date.month).toList ++ rest) =
      .ok (date.month, rest) := fun rest => field_padded hmonths.1 hmonths.2 (by omega)
  have hday : ∀ rest, field 1 31 ((padded 2 date.day).toList ++ rest) =
      .ok (date.day, rest) := fun rest => field_padded hdays.1 hdays.2 (by omega)
  have hclocks : ∀ most n rest, n ≤ most → n < 100 →
      field 0 most ((padded 2 n).toList ++ rest) = .ok (n, rest) :=
    fun most n rest hmost hn => field_padded (Nat.zero_le n) hmost hn
  have hfraction : fractionField ((fractionText (parts t).fraction).toList ++ ['Z']) =
      .ok ((parts t).fraction, ['Z']) := by
    apply fractionField_text (parts t).fraction_lt
    · rintro c cs ⟨⟩
      decide
    · rintro cs ⟨⟩
  have hdate : (⟨Int.ofNat date.year.toNat, date.month, date.day⟩ : Date) = date := by
    rw [Int.ofNat_eq_natCast, Int.toNat_of_nonneg hyear.1]
  have htime := instant_of_parts t
  rw [← hback] at htime
  simp only [read, hchars, hyearText, hyears, hdash, hcolon, hmonth, hday,
    hclocks 23 ((parts t).clock / 3600) _ (by omega) (by omega),
    hclocks 59 ((parts t).clock / 60 % 60) _ (by omega) (by omega),
    hclocks 60 ((parts t).clock % 60) _ (by omega) (by omega), hfraction, zoneField_universal,
    bind, Except.bind, pure, Except.pure, true_or, if_true, List.dropWhile_nil, List.isEmpty_nil,
    Bool.not_true, Bool.false_eq_true, if_false, hdate, htime, hvalid, inRange_of_year h]
  rfl

end Time.Timestamp

end RepoCatalog
