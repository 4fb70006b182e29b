import MediaCatalog.Proofs.Calendar.WrittenRead
import MediaCatalog.Query.Predicate

/-!
The years of points in time. A point in universal time lies in a year exactly if it is not before the first moment
of that year and before that of the next one.
-/

namespace MediaCatalog.Calendar

open MediaCatalog.Text

theorem daysBeforeMonth_le {year month later : Nat} (h : month ≤ later) :
    daysBeforeMonth year month ≤ daysBeforeMonth year later := by
  induction h with
  | refl => exact Nat.le_refl _
  | step _ ih => exact Nat.le_trans ih (Nat.le_add_right _ _)

theorem daysBeforeMonth_end (year : Nat) : daysBeforeMonth year 13 = if isLeapYear year then 366 else 365 := by
  simp only [daysBeforeMonth, daysInMonth]
  split_ifs <;> rfl

theorem succ_div (n divisor : Nat) : (n + 1) / divisor = n / divisor + if (n + 1) % divisor = 0 then 1 else 0 := by
  simp only [Nat.succ_div, Nat.dvd_iff_mod_eq_zero]

theorem daysBeforeYear_succ {year : Nat} (h : 1 ≤ year) :
    daysBeforeYear (year + 1) = daysBeforeYear year + daysBeforeMonth year 13 := by
  obtain ⟨past, rfl⟩ : ∃ past, year = past + 1 := ⟨year - 1, by omega⟩
  have hcenturies : past / 100 ≤ past / 4 := Nat.div_le_div_left (by decide) (by decide)
  have hhundred : (past + 1) % 100 = 0 → (past + 1) % 4 = 0 := by omega
  have hfourHundred : (past + 1) % 400 = 0 → (past + 1) % 100 = 0 := by omega
  rw [daysBeforeMonth_end]
  simp only [daysBeforeYear, isLeapYear, Nat.add_sub_cancel, succ_div past, Bool.and_eq_true, Bool.or_eq_true,
    decide_eq_true_eq, bne_iff_ne]
  -- How often the year is divided is all that matters of the quotients and the remainders.
  generalize past / 4 = fours, past / 100 = hundreds, past / 400 = fourHundreds at *
  generalize (past + 1) % 4 = r, (past + 1) % 100 = r', (past + 1) % 400 = r'' at *
  split_ifs <;> omega

theorem daysBeforeYear_le {year later : Nat} (hyear : 1 ≤ year) (h : year ≤ later) :
    daysBeforeYear year ≤ daysBeforeYear later := by
  induction h with
  | refl => exact Nat.le_refl _
  | step hle ih => exact Nat.le_trans ih (Nat.le_of_lt (daysBeforeYear_lt_succ _ (Nat.le_trans hyear hle)))

namespace Date

theorem daysBeforeYear_le_dayNumber (date : Date) : daysBeforeYear date.year ≤ date.dayNumber := by
  rw [dayNumber, Nat.add_assoc]
  exact Nat.le_add_right _ _

theorem dayNumber_lt (date : Date) : date.dayNumber < daysBeforeYear (date.year + 1) := by
  have hday := date.day_le
  have hpositive := date.one_le_day
  have hmonth : daysBeforeMonth date.year (date.month + 1) ≤ daysBeforeMonth date.year 13 :=
    daysBeforeMonth_le (Nat.succ_le_succ date.month_le)
  rw [daysBeforeMonth] at hmonth
  rw [dayNumber, daysBeforeYear_succ date.one_le_year]
  omega

theorem daysBeforeYear_le_dayNumber_iff (date : Date) {year : Nat} (hyear : 1 ≤ year) :
    daysBeforeYear year ≤ date.dayNumber ↔ year ≤ date.year := by
  constructor
  · intro h
    by_contra hlater
    have hnext := daysBeforeYear_le (Nat.succ_le_succ (Nat.zero_le date.year)) (Nat.lt_of_not_le hlater)
    exact absurd (Nat.lt_of_lt_of_le date.dayNumber_lt hnext) (Nat.not_lt.mpr h)
  · intro h
    exact Nat.le_trans (daysBeforeYear_le hyear h) date.daysBeforeYear_le_dayNumber

end Date

theorem TimeOfDay.ticks_lt (time : TimeOfDay) : time.ticks < ticksPerDay := by
  have hhour := time.hour_lt
  have hminute := time.minute_lt
  have hsecond := time.second_lt
  have hmicrosecond := time.microsecond_lt
  rw [ticks, ticksPerDay]
  omega

/-- The first day of a year. -/
def Date.newYear (year : Nat) (h : 1 ≤ year ∧ year ≤ 9999) : Date :=
  ⟨year, 1, 1, h.1, h.2, le_rfl, by decide, le_rfl, by simp [daysInMonth]⟩

theorem Date.dayNumber_newYear (year : Nat) (h : 1 ≤ year ∧ year ≤ 9999) :
    (newYear year h).dayNumber = daysBeforeYear year := by
  rw [dayNumber, newYear]
  simp [daysBeforeMonth, daysInMonth]

namespace DateTime

/-- The first moment of a year in universal time. -/
def newYear (year : Nat) (h : 1 ≤ year ∧ year ≤ 9999) : DateTime :=
  ⟨.newYear year h, TimeOfDay.midnight, some Offset.utc⟩

theorem instant_of_utc {moment : DateTime} (h : moment.offset = some Offset.utc) :
    moment.instant = (clockTicks moment.date moment.time : Nat) := by
  rw [instant, h]
  exact Int.sub_zero _

theorem instant_newYear (year : Nat) (h : 1 ≤ year ∧ year ≤ 9999) :
    (newYear year h).instant = (daysBeforeYear year * ticksPerDay : Nat) := by
  have hmidnight : TimeOfDay.midnight.ticks = 0 := rfl
  rw [instant_of_utc rfl, clockTicks, newYear, Date.dayNumber_newYear, hmidnight, Nat.add_zero]

theorem newYear_le_iff {moment : DateTime} (hmoment : moment.offset = some Offset.utc) {year : Nat}
    (h : 1 ≤ year ∧ year ≤ 9999) : (newYear year h).instant ≤ moment.instant ↔ year ≤ moment.date.year := by
  have htime := moment.time.ticks_lt
  rw [instant_newYear, instant_of_utc hmoment, Int.ofNat_le, clockTicks,
    ← moment.date.daysBeforeYear_le_dayNumber_iff h.1]
  constructor
  · intro hle
    rw [← Nat.lt_succ_iff]
    refine Nat.lt_of_mul_lt_mul_right (a := ticksPerDay) ?_
    rw [Nat.succ_mul]
    omega
  · intro hle
    exact Nat.le_trans (Nat.mul_le_mul_right _ hle) (Nat.le_add_right _ _)

theorem take_written (moment : DateTime) : moment.written.toList.take 4 = decimal 4 moment.date.year := by
  rw [written, String.toList_ofList, writtenChars, Date.written, List.append_assoc, List.append_assoc]
  exact List.take_left' (length_fixedNumeral 10 4 moment.date.year)

end DateTime

end MediaCatalog.Calendar
