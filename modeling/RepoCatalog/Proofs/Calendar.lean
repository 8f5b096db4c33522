import RepoCatalog.Time.Instant

/-!
# The calendar

Every day has a date that exists, and the date leads back to the day. A day is placed in a cycle of
400 years by its century, the four years of the century, the year of the four and the day of the
year, from which both directions are read off.
-/
namespace RepoCatalog.Time

namespace Date

theorem fdiv_eq_ediv {b : Int} (hb : 0 < b) (a : Int) : a.fdiv b = a / b :=
  Int.fdiv_eq_ediv_of_nonneg a (Int.le_of_lt hb)

/-- The place of a day in a cycle of 400 years, which start in March. All parts count from zero, and
only a leap year has a day 365. -/
structure Place where
  century : Int
  four : Int
  year : Int
  day : Int
  century_bounds : 0 ≤ century ∧ century ≤ 3
  four_bounds : 0 ≤ four ∧ four ≤ 24
  year_bounds : 0 ≤ year ∧ year ≤ 3
  day_bounds : 0 ≤ day ∧ day ≤ 365
  leap : day = 365 → year = 3 ∧ (four < 24 ∨ century = 3)

namespace Place

def yearOfCycle (p : Place) : Int :=
  100 * p.century + 4 * p.four + p.year

def dayOfCycle (p : Place) : Int :=
  36524 * p.century + 1461 * p.four + 365 * p.year + p.day

/-- The month of a day, March being the first. -/
def month (p : Place) : Int :=
  (5 * p.day + 2) / 153

/-- The date of a day in a cycle. January and February belong to the next year. -/
def date (p : Place) (cycle : Int) : Date where
  year := if p.month < 10 then p.yearOfCycle + cycle * 400 else p.yearOfCycle + cycle * 400 + 1
  month := (if p.month < 10 then p.month + 3 else p.month - 9).toNat
  day := (p.day - (153 * p.month + 2) / 5 + 1).toNat

theorem exists_dayOfCycle {d : Int} (h : 0 ≤ d ∧ d < 146097) : ∃ p : Place, p.dayOfCycle = d := by
  have hcentury : 0 ≤ d / 36524 - d / 146096 ∧ d / 36524 - d / 146096 ≤ 3 := by omega
  generalize hc : d / 36524 - d / 146096 = c at hcentury
  have hfour : 0 ≤ (d - 36524 * c) / 1461 ∧ (d - 36524 * c) / 1461 ≤ 24 := by omega
  generalize hj : (d - 36524 * c) / 1461 = j at hfour
  have hrest : 0 ≤ d - 36524 * c - 1461 * j ∧ d - 36524 * c - 1461 * j ≤ 1460 := by omega
  generalize hr : d - 36524 * c - 1461 * j = r at hrest
  refine ⟨⟨c, j, r / 365 - r / 1460, r - 365 * (r / 365 - r / 1460), hcentury, hfour, by omega,
    by omega, by omega⟩, ?_⟩
  simp only [dayOfCycle]
  omega

theorem dayOfCycle_bounds (p : Place) : 0 ≤ p.dayOfCycle ∧ p.dayOfCycle < 146097 := by
  obtain ⟨c, j, t, s, hc, hj, ht, hs, hleap⟩ := p
  simp only [dayOfCycle]
  omega

theorem yearOfCycle_bounds (p : Place) : 0 ≤ p.yearOfCycle ∧ p.yearOfCycle ≤ 399 := by
  obtain ⟨c, j, t, s, hc, hj, ht, -, -⟩ := p
  simp only [yearOfCycle]
  omega

theorem month_bounds (p : Place) : 0 ≤ p.month ∧ p.month ≤ 11 := by
  have hday := p.day_bounds
  unfold month
  omega

theorem dayOfCycle_eq (p : Place) : p.dayOfCycle =
    365 * p.yearOfCycle + p.yearOfCycle / 4 - p.yearOfCycle / 100 + p.day := by
  obtain ⟨c, j, t, s, hc, hj, ht, -, -⟩ := p
  simp only [dayOfCycle, yearOfCycle]
  omega

theorem year_of_dayOfCycle (p : Place) :
    (p.dayOfCycle - p.dayOfCycle / 1460 + p.dayOfCycle / 36524 - p.dayOfCycle / 146096) / 365 =
      p.yearOfCycle := by
  obtain ⟨c, j, t, s, hc, hj, ht, hs, hleap⟩ := p
  simp only [dayOfCycle, yearOfCycle]
  generalize hd : 36524 * c + 1461 * j + 365 * t + s = d
  by_cases hlast : d = 146096
  · omega
  · have hcenturies : d / 36524 = c := by omega
    have hcycles : d / 146096 = 0 := by omega
    have hfours : d / 1460 = 25 * c + j ∨ d / 1460 = 25 * c + j + 1 ∧ t = 3 := by omega
    omega

theorem ofDays_eq (p : Place) (cycle : Int) :
    ofDays (cycle * 146097 + p.dayOfCycle - 719468) = p.date cycle := by
  have hbounds := p.dayOfCycle_bounds
  have hcycle : (cycle * 146097 + p.dayOfCycle - 719468 + 719468) / 146097 = cycle := by omega
  have hrest : cycle * 146097 + p.dayOfCycle - 719468 + 719468 - cycle * 146097 =
      p.dayOfCycle := by
    omega
  have hday : p.dayOfCycle - (365 * p.yearOfCycle + p.yearOfCycle / 4 - p.yearOfCycle / 100) =
      p.day := by
    rw [p.dayOfCycle_eq]
    omega
  have hmonth : (5 * p.day + 2) / 153 = p.month := rfl
  have hmonths := p.month_bounds
  simp (disch := decide) only [ofDays, fdiv_eq_ediv, hcycle, hrest, p.year_of_dayOfCycle, hday,
    hmonth, date, Date.mk.injEq, and_true]
  split
  · rw [if_neg (by omega)]
  · rw [if_pos (by omega)]

theorem toDays_date (p : Place) (cycle : Int) :
    (p.date cycle).toDays = cycle * 146097 + p.dayOfCycle - 719468 := by
  have hmonths := p.month_bounds
  have hdays : 0 ≤ p.day - (153 * p.month + 2) / 5 := by
    have hday := p.day_bounds
    unfold month
    omega
  have hmonth : (((p.date cycle).month + 9) % 12 : Nat) = p.month := by
    simp only [date]
    split <;> omega
  have hyear : (if (p.date cycle).month ≤ 2 then (p.date cycle).year - 1
      else (p.date cycle).year) = p.yearOfCycle + cycle * 400 := by
    simp only [date]
    split <;> split <;> omega
  have hday : ((p.date cycle).day : Int) = p.day - (153 * p.month + 2) / 5 + 1 := by
    simp only [date]
    omega
  have hyears := p.yearOfCycle_bounds
  have hcycle : (p.yearOfCycle + cycle * 400) / 400 = cycle := by omega
  simp (disch := decide) only [toDays, fdiv_eq_ediv]
  rw [hmonth, hyear, hday, hcycle, p.dayOfCycle_eq, Int.add_sub_cancel]
  omega

theorem isLeapYear_of_day (p : Place) (cycle : Int) (h : p.day = 365) :
    isLeapYear (p.yearOfCycle + cycle * 400 + 1) = true := by
  obtain ⟨c, j, t, s, hc, hj, ht, hs, hleap⟩ := p
  have hlast := hleap h
  simp only [isLeapYear, yearOfCycle, Bool.and_eq_true, Bool.or_eq_true, beq_iff_eq, bne_iff_ne]
  omega

theorem isValid_date (p : Place) (cycle : Int) : (p.date cycle).isValid = true := by
  have hleap := p.isLeapYear_of_day cycle
  have hday := p.day_bounds
  have hmonth : (5 * p.day + 2) / 153 = p.month := rfl
  by_cases hearly : p.month < 10
  · simp only [isValid, date, daysInMonth, hearly, if_true, Bool.and_eq_true, Bool.or_eq_true,
      decide_eq_true_eq, beq_iff_eq]
    refine ⟨⟨⟨by omega, by omega⟩, by omega⟩, ?_⟩
    rw [if_neg (by omega)]
    split <;> omega
  · simp only [isValid, date, daysInMonth, hearly, if_false, Bool.and_eq_true, Bool.or_eq_true,
      decide_eq_true_eq, beq_iff_eq]
    refine ⟨⟨⟨by omega, by omega⟩, by omega⟩, ?_⟩
    split
    · by_cases hlast : p.day = 365
      · rw [hleap hlast, if_pos rfl]
        omega
      · split <;> omega
    · rw [if_neg (by omega)]
      omega

end Place

theorem exists_place (days : Int) :
    ∃ (cycle : Int) (p : Place), days = cycle * 146097 + p.dayOfCycle - 719468 := by
  have hrest : 0 ≤ (days + 719468) % 146097 ∧ (days + 719468) % 146097 < 146097 := by omega
  obtain ⟨p, hp⟩ := Place.exists_dayOfCycle hrest
  refine ⟨(days + 719468) / 146097, p, ?_⟩
  omega

theorem toDays_ofDays (days : Int) : (ofDays days).toDays = days := by
  obtain ⟨cycle, p, rfl⟩ := exists_place days
  rw [p.ofDays_eq, p.toDays_date]

theorem isValid_ofDays (days : Int) : (ofDays days).isValid = true := by
  obtain ⟨cycle, p, rfl⟩ := exists_place days
  rw [p.ofDays_eq]
  exact p.isValid_date cycle

/-- Cycles of 400 years are told apart by their days, although the cycles in which days are counted
start in March. -/
theorem year_lt_iff (k days : Int) :
    (ofDays days).year < 400 * k ↔ days < 146097 * k - 719528 := by
  obtain ⟨cycle, p, rfl⟩ := exists_place days
  have hmonth : (5 * p.day + 2) / 153 = p.month := rfl
  have hday := p.day_bounds
  have hyear := p.yearOfCycle_bounds
  rw [p.ofDays_eq, p.dayOfCycle_eq]
  simp only [Place.date]
  generalize p.yearOfCycle = year at hyear
  split <;> omega

end Date

namespace Instant

theorem year_lt_iff (k : Int) (t : Instant) :
    t.year < 400 * k ↔ t.nanoseconds <
      (146097 * k - 719528) * (secondsPerDay * Duration.nanosecondsPerSecond) := by
  have hpos : 0 < secondsPerDay * Duration.nanosecondsPerSecond := by decide
  unfold Instant.year
  rw [Date.year_lt_iff, Date.fdiv_eq_ediv hpos, Int.ediv_lt_iff_lt_mul hpos]

end Instant

end RepoCatalog.Time
