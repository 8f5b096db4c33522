/-!
# Calendar dates

Days are counted from 1970-01-01 in the proleptic Gregorian calendar. A cycle of 400 years has
146097 days; inside one, years are taken to start in March, so that the leap day comes last.
-/
namespace RepoCatalog.Time

structure Date where
  year : Int
  month : Nat
  day : Nat
deriving DecidableEq, Inhabited

namespace Date

def isLeapYear (year : Int) : Bool :=
  year % 4 == 0 && (year % 100 != 0 || year % 400 == 0)

def daysInMonth (year : Int) (month : Nat) : Nat :=
  if month == 2 then (if isLeapYear year then 29 else 28)
  else if month == 4 || month == 6 || month == 9 || month == 11 then 30
  else 31

def isValid (d : Date) : Bool :=
  1 ≤ d.month && d.month ≤ 12 && 1 ≤ d.day && d.day ≤ daysInMonth d.year d.month

def toDays (d : Date) : Int :=
  let year := if d.month ≤ 2 then d.year - 1 else d.year
  let cycle := year.fdiv 400
  let yearOfCycle := year - cycle * 400
  let monthFromMarch : Int := ((d.month + 9) % 12 : Nat)
  let dayOfYear := (153 * monthFromMarch + 2).fdiv 5 + d.day - 1
  let dayOfCycle := yearOfCycle * 365 + yearOfCycle.fdiv 4 - yearOfCycle.fdiv 100 + dayOfYear
  cycle * 146097 + dayOfCycle - 719468

def ofDays (days : Int) : Date :=
  let shifted := days + 719468
  let cycle := shifted.fdiv 146097
  let dayOfCycle := shifted - cycle * 146097
  let yearOfCycle :=
    (dayOfCycle - dayOfCycle.fdiv 1460 + dayOfCycle.fdiv 36524 - dayOfCycle.fdiv 146096).fdiv 365
  let dayOfYear := dayOfCycle - (365 * yearOfCycle + yearOfCycle.fdiv 4 - yearOfCycle.fdiv 100)
  let monthFromMarch := (5 * dayOfYear + 2).fdiv 153
  let day := dayOfYear - (153 * monthFromMarch + 2).fdiv 5 + 1
  let month := if monthFromMarch < 10 then monthFromMarch + 3 else monthFromMarch - 9
  let year := yearOfCycle + cycle * 400
  ⟨if month ≤ 2 then year + 1 else year, month.toNat, day.toNat⟩

end Date

end RepoCatalog.Time
