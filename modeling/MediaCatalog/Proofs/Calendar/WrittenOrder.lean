import MediaCatalog.Proofs.Calendar.Instants
import Mathlib.Data.String.Basic

/-!
Written date-times in the order of time. In universal time the earlier one of two has the smaller text: the fields of a
written date-time go from the year to the second in numerals of one width each, and a text without a fraction goes on
with the sign of the offset, which is smaller than the point before a fraction.
-/

namespace MediaCatalog.Calendar

open MediaCatalog.Text

namespace Date

variable {first second : Date}

theorem eq_iff_fields_eq :
    first = second ↔ first.year = second.year ∧ first.month = second.month ∧ first.day = second.day := by
  cases first
  cases second
  rw [mk.injEq]

theorem dayNumber_lt_of_year_lt (h : first.year < second.year) : first.dayNumber < second.dayNumber :=
  Nat.lt_of_lt_of_le first.dayNumber_lt ((second.daysBeforeYear_le_dayNumber_iff (Nat.le_add_left 1 _)).mpr h)

theorem dayNumber_lt_of_month_lt (hyear : first.year = second.year) (h : first.month < second.month) :
    first.dayNumber < second.dayNumber := by
  have hday := first.day_le
  have hpositive := first.one_le_day
  have hmonth : daysBeforeMonth first.year (first.month + 1) ≤ daysBeforeMonth first.year second.month :=
    daysBeforeMonth_le h
  rw [daysBeforeMonth] at hmonth
  rw [dayNumber, dayNumber, ← hyear]
  omega

theorem dayNumber_lt_iff :
    first.dayNumber < second.dayNumber ↔ first.year < second.year ∨ first.year = second.year ∧
      (first.month < second.month ∨ first.month = second.month ∧ first.day < second.day) := by
  rcases Nat.lt_trichotomy first.year second.year with hyear | hyear | hyear
  · exact iff_of_true (dayNumber_lt_of_year_lt hyear) (.inl hyear)
  · rcases Nat.lt_trichotomy first.month second.month with hmonth | hmonth | hmonth
    · exact iff_of_true (dayNumber_lt_of_month_lt hyear hmonth) (.inr ⟨hyear, .inl hmonth⟩)
    · have hday := first.one_le_day
      have hday' := second.one_le_day
      rw [dayNumber, dayNumber, hyear, hmonth]
      omega
    · have hlt := dayNumber_lt_of_month_lt hyear.symm hmonth
      omega
  · have hlt := dayNumber_lt_of_year_lt hyear
    omega

theorem written_append_lt_iff (first second : Date) (rest rest' : List Char) :
    first.written ++ rest < second.written ++ rest' ↔
      first.dayNumber < second.dayNumber ∨ first = second ∧ rest < rest' := by
  have hyear : first.year < 10 ^ 4 := Nat.lt_succ_of_le first.year_le
  have hyear' : second.year < 10 ^ 4 := Nat.lt_succ_of_le second.year_le
  have hmonth : first.month < 10 ^ 2 := Nat.lt_of_le_of_lt first.month_le (by decide)
  have hmonth' : second.month < 10 ^ 2 := Nat.lt_of_le_of_lt second.month_le (by decide)
  have hday : first.day < 10 ^ 2 := first.day_lt
  have hday' : second.day < 10 ^ 2 := second.day_lt
  simp only [written, List.append_assoc, List.cons_append, decimal_append_lt_iff hyear hyear',
    decimal_append_lt_iff hmonth hmonth', decimal_append_lt_iff hday hday', List.cons_lt_cons_iff, lt_irrefl,
    false_or, true_and, dayNumber_lt_iff, eq_iff_fields_eq]
  tauto

theorem dayNumber_injective (h : first.dayNumber = second.dayNumber) : first = second := by
  have hdate := congrArg ofDayNumber? h
  rw [ofDayNumber_dayNumber, ofDayNumber_dayNumber] at hdate
  exact Option.some.inj hdate

end Date

namespace TimeOfDay

/-- A fraction is written behind a whole second in the order of time, since `+` is smaller than the point. -/
theorem writtenFraction_append_lt_iff {first second : Nat} (hfirst : first < 1000000) (hsecond : second < 1000000) :
    writtenFraction first ++ Offset.utc.written < writtenFraction second ++ Offset.utc.written ↔ first < second := by
  obtain ⟨rest, hrest⟩ : ∃ rest, Offset.utc.written = '+' :: rest := ⟨_, rfl⟩
  have hpoint : '+' < '.' := by decide
  unfold writtenFraction
  -- Where only one of the seconds is whole, the sign of its offset meets the point of the other one.
  split_ifs with hzero hzero' hzero'
  · rw [hzero, hzero']
    exact iff_of_false (lt_irrefl _) (lt_irrefl _)
  · rw [List.nil_append, hrest, List.cons_append, List.cons_lt_cons_iff]
    exact iff_of_true (.inl hpoint) (by omega)
  · rw [List.nil_append, hrest, List.cons_append, List.cons_lt_cons_iff]
    refine iff_of_false ?_ (by omega)
    rintro (hlt | ⟨heq, _⟩)
    · exact lt_asymm hpoint hlt
    · exact hpoint.ne' heq
  · rw [List.cons_append, List.cons_append, List.cons_lt_cons_iff,
      decimal_append_lt_iff (show first < 10 ^ 6 from hfirst) (show second < 10 ^ 6 from hsecond)]
    simp

theorem written_append_lt_iff (first second : TimeOfDay) :
    first.written ++ Offset.utc.written < second.written ++ Offset.utc.written ↔ first.ticks < second.ticks := by
  have hhour := first.hour_lt
  have hminute := first.minute_lt
  have hsecond := first.second_lt
  have hmicrosecond := first.microsecond_lt
  have hhour' := second.hour_lt
  have hminute' := second.minute_lt
  have hsecond' := second.second_lt
  have hmicrosecond' := second.microsecond_lt
  have hfields : ∀ n, n < 60 → n < 10 ^ 2 := by omega
  simp only [written, List.append_assoc, List.cons_append, List.cons_lt_cons_iff, lt_irrefl, false_or, true_and,
    decimal_append_lt_iff (hfields first.hour (by omega)) (hfields second.hour (by omega)),
    decimal_append_lt_iff (hfields _ hminute) (hfields _ hminute'),
    decimal_append_lt_iff (hfields _ hsecond) (hfields _ hsecond'),
    writtenFraction_append_lt_iff hmicrosecond hmicrosecond']
  rw [ticks, ticks]
  omega

end TimeOfDay

namespace DateTime

theorem clockTicks_lt_iff (date date' : Date) (time time' : TimeOfDay) :
    clockTicks date time < clockTicks date' time' ↔
      date.dayNumber < date'.dayNumber ∨ date = date' ∧ time.ticks < time'.ticks := by
  have htime := time.ticks_lt
  have htime' := time'.ticks_lt
  have hdate : date = date' ↔ date.dayNumber = date'.dayNumber :=
    ⟨congrArg Date.dayNumber, Date.dayNumber_injective⟩
  rw [hdate, clockTicks, clockTicks]
  rw [ticksPerDay] at *
  omega

theorem written_lt_iff {first second : DateTime} (hfirst : first.offset = some Offset.utc)
    (hsecond : second.offset = some Offset.utc) : first.written < second.written ↔ first.instant < second.instant := by
  rw [String.lt_iff_toList_lt, written, written, String.toList_ofList, String.toList_ofList, writtenChars, writtenChars,
    hfirst, hsecond, Option.map_some, Option.getD_some, instant_of_utc hfirst, instant_of_utc hsecond, Int.ofNat_lt,
    clockTicks_lt_iff, List.append_assoc, List.append_assoc, Date.written_append_lt_iff, List.cons_append,
    List.cons_append, List.cons_lt_cons_iff, TimeOfDay.written_append_lt_iff]
  simp

theorem inCalendar_of_naive {moment : DateTime} (h : moment.offset = none) : moment.InCalendar := by
  have htime := moment.time.ticks_lt
  have hdate : moment.date.dayNumber + 1 ≤ daysBeforeYear 10000 :=
    Nat.le_trans moment.date.dayNumber_lt
      (daysBeforeYear_le (Nat.le_add_left 1 _) (Nat.succ_le_succ moment.date.year_le))
  have hday : (moment.date.dayNumber + 1) * ticksPerDay ≤ daysBeforeYear 10000 * ticksPerDay :=
    Nat.mul_le_mul_right ticksPerDay hdate
  have hinstant : moment.instant = (clockTicks moment.date moment.time : Nat) := by
    rw [instant, h]
    exact Int.sub_zero _
  rw [Nat.succ_mul] at hday
  rw [InCalendar, hinstant, clockTicks]
  omega

end DateTime

end MediaCatalog.Calendar
