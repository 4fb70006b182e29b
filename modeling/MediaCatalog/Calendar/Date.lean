/-!
Dates of the Gregorian calendar in the years 1 to 9999, and the count of days that orders them.
-/

namespace MediaCatalog.Calendar

def isLeapYear (year : Nat) : Bool :=
  year % 4 = 0 && (year % 100 != 0 || year % 400 = 0)

/-- The length of a month; there are no days outside the months 1 to 12. -/
def daysInMonth (year month : Nat) : Nat :=
  match month with
  | 1 => 31
  | 2 => if isLeapYear year then 29 else 28
  | 3 => 31
  | 4 => 30
  | 5 => 31
  | 6 => 30
  | 7 => 31
  | 8 => 31
  | 9 => 30
  | 10 => 31
  | 11 => 30
  | 12 => 31
  | _ => 0

def daysBeforeMonth (year : Nat) : (month : Nat) → Nat
  | 0 => 0
  | month + 1 => daysBeforeMonth year month + daysInMonth year month

def daysBeforeYear (year : Nat) : Nat :=
  365 * (year - 1) + (year - 1) / 4 - (year - 1) / 100 + (year - 1) / 400

theorem daysBeforeYear_lt_succ (year : Nat) (h : 1 ≤ year) :
    daysBeforeYear year < daysBeforeYear (year + 1) := by
  unfold daysBeforeYear
  omega

structure Date where
  year : Nat
  month : Nat
  day : Nat
  one_le_year : 1 ≤ year
  year_le : year ≤ 9999
  one_le_month : 1 ≤ month
  month_le : month ≤ 12
  one_le_day : 1 ≤ day
  day_le : day ≤ daysInMonth year month
deriving DecidableEq

namespace Date

def of? (year month day : Nat) : Option Date :=
  if h : 1 ≤ year ∧ year ≤ 9999 ∧ 1 ≤ month ∧ month ≤ 12 ∧ 1 ≤ day ∧ day ≤ daysInMonth year month then
    some ⟨year, month, day, h.1, h.2.1, h.2.2.1, h.2.2.2.1, h.2.2.2.2.1, h.2.2.2.2.2⟩
  else none

/-- The days that have passed since the first of January of year 1. -/
def dayNumber (date : Date) : Nat :=
  daysBeforeYear date.year + daysBeforeMonth date.year date.month + (date.day - 1)

/-- The year of day `n`, looked for from a year that does not begin after it. -/
def yearFrom (n year : Nat) (h : 1 ≤ year) : Nat :=
  if n < daysBeforeYear (year + 1) then year else yearFrom n (year + 1) (by omega)
termination_by n - daysBeforeYear year
decreasing_by
  have := daysBeforeYear_lt_succ year h
  omega

/-- The month of the `n`-th day of a year, counted from zero and looked for from month `month` on. -/
def monthFrom (year n month : Nat) : Nat :=
  if 12 ≤ month ∨ n < daysBeforeMonth year (month + 1) then month else monthFrom year n (month + 1)
termination_by 12 - month

def ofDayNumber? (n : Nat) : Option Date :=
  let year := yearFrom n (n / 366 + 1) (by omega)
  let rest := n - daysBeforeYear year
  let month := monthFrom year rest 1
  of? year month (rest - daysBeforeMonth year month + 1)

/-- The day of the week of day `n`; Monday is zero, and the first day of year 1 is one. -/
def weekday (n : Nat) : Nat :=
  n % 7

/-- The Monday of the first week of a year, which is the week of the first Thursday. -/
def firstMonday (year : Nat) : Nat :=
  let first := daysBeforeYear year
  if weekday first ≤ 3 then first - weekday first else first - weekday first + 7

/-- A year has 53 weeks if it begins with a Thursday, or with a Wednesday and is a leap year. -/
def weeksInYear (year : Nat) : Nat :=
  let first := weekday (daysBeforeYear year)
  if first = 3 ∨ (first = 2 ∧ isLeapYear year) then 53 else 52

/-- The day with the given year, week and day of the week, Monday being 1. -/
def ofWeek? (year week day : Nat) : Option Date :=
  if 1 ≤ year ∧ 1 ≤ week ∧ week ≤ weeksInYear year ∧ 1 ≤ day ∧ day ≤ 7 then
    ofDayNumber? (firstMonday year + (week - 1) * 7 + (day - 1))
  else none

end Date

end MediaCatalog.Calendar
