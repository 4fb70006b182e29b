import MediaCatalog.Proofs.Calendar.Years

/-!
Points in time and the date-times that show them. A day is the only one of its number, and universal time shows a
point in time in one way, so that taking a date-time to universal time keeps the point, and taking it there twice
changes nothing.
-/

namespace MediaCatalog.Calendar

namespace Date

theorem yearFrom_spec (n year : Nat) (h : 1 ≤ year) (hle : daysBeforeYear year ≤ n) :
    1 ≤ yearFrom n year h ∧ daysBeforeYear (yearFrom n year h) ≤ n ∧
      n < daysBeforeYear (yearFrom n year h + 1) := by
  fun_induction yearFrom n year h with
  | case1 year h hlt => exact ⟨h, hle, hlt⟩
  | case2 year h hlt ih => exact ih (Nat.not_lt.mp hlt)

theorem monthFrom_spec (year n month : Nat) (h : month ≤ 12) (hle : daysBeforeMonth year month ≤ n) :
    month ≤ monthFrom year n month ∧ monthFrom year n month ≤ 12 ∧
      daysBeforeMonth year (monthFrom year n month) ≤ n ∧
      (monthFrom year n month < 12 → n < daysBeforeMonth year (monthFrom year n month + 1)) := by
  fun_induction monthFrom year n month with
  | case1 month hstop =>
      refine ⟨le_rfl, h, hle, fun hlt => ?_⟩
      exact hstop.resolve_left (Nat.not_le.mpr hlt)
  | case2 month hgo ih =>
      rw [not_or, Nat.not_le, Nat.not_lt] at hgo
      obtain ⟨hlow, hhigh, hbefore, hbehind⟩ := ih hgo.1 hgo.2
      exact ⟨Nat.le_of_succ_le hlow, hhigh, hbefore, hbehind⟩

/-- The year of a day is looked for from one that has not begun after it. -/
theorem daysBeforeYear_start_le (n : Nat) : daysBeforeYear (n / 366 + 1) ≤ n := by
  rw [daysBeforeYear, Nat.add_sub_cancel]
  omega

theorem dayNumber_of_ofDayNumber {n : Nat} {date : Date} (h : ofDayNumber? n = some date) : date.dayNumber = n := by
  obtain ⟨_, hyear, _⟩ := yearFrom_spec n (n / 366 + 1) (by omega) (daysBeforeYear_start_le n)
  rw [ofDayNumber?] at h
  generalize yearFrom n (n / 366 + 1) (by omega) = year at h hyear
  obtain ⟨_, _, hmonth, _⟩ := monthFrom_spec year (n - daysBeforeYear year) 1 (by decide) (Nat.zero_le _)
  generalize monthFrom year (n - daysBeforeYear year) 1 = month at h hmonth
  rw [of?] at h
  split at h
  · obtain rfl := Option.some.inj h
    rw [dayNumber]
    dsimp only
    omega
  · cases h

theorem daysBeforeMonth_le_rest (date : Date) :
    daysBeforeMonth date.year date.month ≤ date.dayNumber - daysBeforeYear date.year ∧
      date.dayNumber - daysBeforeYear date.year < daysBeforeMonth date.year (date.month + 1) := by
  have hday := date.day_le
  have hpositive := date.one_le_day
  rw [dayNumber, daysBeforeMonth]
  omega

theorem yearFrom_dayNumber (date : Date) (start : Nat) (h : 1 ≤ start) (hle : daysBeforeYear start ≤ date.dayNumber) :
    yearFrom date.dayNumber start h = date.year := by
  obtain ⟨hpositive, hbefore, hbehind⟩ := yearFrom_spec date.dayNumber start h hle
  have hlow := (date.daysBeforeYear_le_dayNumber_iff hpositive).mp hbefore
  have hhigh := mt (date.daysBeforeYear_le_dayNumber_iff (Nat.le_add_left 1 _)).mpr (Nat.not_le.mpr hbehind)
  omega

theorem monthFrom_dayNumber (date : Date) :
    monthFrom date.year (date.dayNumber - daysBeforeYear date.year) 1 = date.month := by
  obtain ⟨hrest, hrest'⟩ := date.daysBeforeMonth_le_rest
  obtain ⟨_, _, hbefore, hbehind⟩ := monthFrom_spec date.year (date.dayNumber - daysBeforeYear date.year) 1
    (by decide) (Nat.zero_le _)
  have hmonth := date.month_le
  generalize monthFrom date.year (date.dayNumber - daysBeforeYear date.year) 1 = month at *
  rcases Nat.lt_trichotomy month date.month with hlt | heq | hgt
  · have hmono : daysBeforeMonth date.year (month + 1) ≤ daysBeforeMonth date.year date.month := daysBeforeMonth_le hlt
    have hstop := hbehind (Nat.lt_of_lt_of_le hlt hmonth)
    omega
  · exact heq
  · have hmono : daysBeforeMonth date.year (date.month + 1) ≤ daysBeforeMonth date.year month := daysBeforeMonth_le hgt
    omega

theorem ofDayNumber_dayNumber (date : Date) : ofDayNumber? date.dayNumber = some date := by
  have hday := date.one_le_day
  rw [ofDayNumber?, yearFrom_dayNumber date _ _ (daysBeforeYear_start_le date.dayNumber), monthFrom_dayNumber]
  have hrest : date.dayNumber - daysBeforeYear date.year - daysBeforeMonth date.year date.month + 1 = date.day := by
    rw [dayNumber]
    omega
  rw [hrest, date.of_self]

theorem exists_ofDayNumber {n : Nat} (h : n < daysBeforeYear 10000) : ∃ date, ofDayNumber? n = some date := by
  obtain ⟨hpositive, hyear, hbehind⟩ := yearFrom_spec n (n / 366 + 1) (by omega) (daysBeforeYear_start_le n)
  rw [ofDayNumber?]
  generalize yearFrom n (n / 366 + 1) (by omega) = year at hpositive hyear hbehind ⊢
  have hlast : year ≤ 9999 := by
    by_contra hlate
    have hmono : daysBeforeYear 10000 ≤ daysBeforeYear year := daysBeforeYear_le (by decide) (by omega)
    omega
  rw [daysBeforeYear_succ hpositive] at hbehind
  obtain ⟨hfirst, htwelve, hmonth, hnext⟩ :=
    monthFrom_spec year (n - daysBeforeYear year) 1 (by decide) (Nat.zero_le _)
  generalize monthFrom year (n - daysBeforeYear year) 1 = month at hfirst htwelve hmonth hnext ⊢
  have hday : n - daysBeforeYear year < daysBeforeMonth year (month + 1) := by
    rcases Nat.lt_or_ge month 12 with hlt | hge
    · exact hnext hlt
    · obtain rfl : month = 12 := by omega
      change n - daysBeforeYear year < daysBeforeMonth year 13
      omega
  rw [daysBeforeMonth] at hday
  rw [of?, dif_pos ⟨hpositive, hlast, hfirst, htwelve, by omega, by omega⟩]
  exact ⟨_, rfl⟩

theorem ofDayNumber_eq_none_iff {n : Nat} : ofDayNumber? n = none ↔ daysBeforeYear 10000 ≤ n := by
  constructor
  · intro hnone
    by_contra hlt
    obtain ⟨date, hdate⟩ := exists_ofDayNumber (Nat.not_le.mp hlt)
    rw [hnone] at hdate
    cases hdate
  · intro hle
    by_contra hsome
    obtain ⟨date, hdate⟩ := Option.ne_none_iff_exists'.mp hsome
    have hbefore := date.dayNumber_lt
    have hmono : daysBeforeYear (date.year + 1) ≤ daysBeforeYear 10000 :=
      daysBeforeYear_le (by omega) (Nat.succ_le_succ date.year_le)
    rw [dayNumber_of_ofDayNumber hdate] at hbefore
    omega

end Date

namespace TimeOfDay

theorem ticks_ofTicks {n : Nat} (h : n < ticksPerDay) : (ofTicks n).ticks = n := by
  rw [ticksPerDay] at h
  rw [ticks, ofTicks]
  dsimp only
  omega

theorem ofTicks_ticks (time : TimeOfDay) : ofTicks time.ticks = time := by
  have hhour := time.hour_lt
  have hminute := time.minute_lt
  have hsecond := time.second_lt
  have hmicrosecond := time.microsecond_lt
  cases time
  simp only [ofTicks, ticks, TimeOfDay.mk.injEq]
  omega

end TimeOfDay

namespace DateTime

@[simp] theorem instant_assumeUtc (moment : DateTime) : moment.assumeUtc.instant = moment.instant := by
  obtain ⟨date, time, offset⟩ := moment
  cases offset <;> rfl

theorem clockTicks_div (date : Date) (time : TimeOfDay) : clockTicks date time / ticksPerDay = date.dayNumber := by
  have htime := time.ticks_lt
  rw [clockTicks, Nat.add_comm, Nat.add_mul_div_right _ _ (by decide), Nat.div_eq_of_lt htime, Nat.zero_add]

theorem clockTicks_mod (date : Date) (time : TimeOfDay) : clockTicks date time % ticksPerDay = time.ticks := by
  rw [clockTicks, Nat.add_comm, Nat.add_mul_mod_self_right, Nat.mod_eq_of_lt time.ticks_lt]

/-- Whether universal time shows a year from 1 to 9999 at a point in time. -/
def InCalendar (moment : DateTime) : Prop :=
  0 ≤ moment.instant ∧ moment.instant < daysBeforeYear 10000 * ticksPerDay

theorem toUtc_eq_none_iff {moment : DateTime} : moment.toUtc? = none ↔ ¬ moment.InCalendar := by
  rw [toUtc?, InCalendar]
  unfold ofInstant?
  split
  · rename_i n hinstant
    rw [hinstant, Option.map_eq_none_iff, Date.ofDayNumber_eq_none_iff, Nat.le_div_iff_mul_le (by decide)]
    simp only [Int.ofNat_eq_natCast]
    omega
  · rename_i n hinstant
    rw [hinstant]
    simp

theorem toUtc_of_utc {moment : DateTime} (h : moment.offset = some Offset.utc) : moment.toUtc? = some moment := by
  rw [toUtc?, instant_of_utc h]
  change (Date.ofDayNumber? (clockTicks moment.date moment.time / ticksPerDay)).map _ = _
  rw [clockTicks_div, clockTicks_mod, Date.ofDayNumber_dayNumber, TimeOfDay.ofTicks_ticks, Option.map_some, ← h]

theorem instant_of_toUtc {date moment : DateTime} (h : date.toUtc? = some moment) : moment.instant = date.instant := by
  rw [toUtc?] at h
  generalize date.instant = ticks at h
  unfold ofInstant? at h
  split at h
  · rename_i n
    obtain ⟨day, hday, rfl⟩ := Option.map_eq_some_iff.mp h
    rw [instant_of_utc rfl, clockTicks, TimeOfDay.ticks_ofTicks (Nat.mod_lt _ (by decide)),
      Date.dayNumber_of_ofDayNumber hday, Nat.div_add_mod']
    rfl
  · cases h

end DateTime

end MediaCatalog.Calendar
