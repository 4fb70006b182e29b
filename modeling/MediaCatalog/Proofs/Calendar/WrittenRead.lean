import MediaCatalog.Calendar.Reader
import MediaCatalog.Calendar.Written
import MediaCatalog.Proofs.Text.Numerals
import Mathlib.Data.List.TakeWhile

/-!
A written date-time is read back. Only an offset of less than a second is not: the reader takes it for none.
-/

namespace MediaCatalog.Calendar

open MediaCatalog.Text

theorem Date.of_self (date : Date) : Date.of? date.year date.month date.day = some date := by
  have hdate := And.intro date.one_le_year (And.intro date.year_le (And.intro date.one_le_month
    (And.intro date.month_le (And.intro date.one_le_day date.day_le))))
  rw [Date.of?, dif_pos hdate]

theorem Date.of_eq_some_iff {year month day : Nat} {date : Date} :
    Date.of? year month day = some date ↔ date.year = year ∧ date.month = month ∧ date.day = day := by
  constructor
  · intro h
    rw [Date.of?] at h
    split at h <;> cases h
    exact ⟨rfl, rfl, rfl⟩
  · rintro ⟨rfl, rfl, rfl⟩
    exact date.of_self

theorem daysInMonth_le (year month : Nat) : daysInMonth year month ≤ 31 := by
  unfold daysInMonth
  split <;> first | omega | (split <;> omega)

theorem Date.day_lt (date : Date) : date.day < 100 := by
  have hday := date.day_le
  have hlength := daysInMonth_le date.year date.month
  omega

theorem TimeOfDay.of_self (time : TimeOfDay) :
    TimeOfDay.of? time.hour time.minute time.second time.microsecond = some time := by
  have htime := And.intro time.hour_lt (And.intro time.minute_lt
    (And.intro time.second_lt time.microsecond_lt))
  rw [TimeOfDay.of?, dif_pos htime]

theorem TimeOfDay.of_eq_some_iff {hour minute second microsecond : Nat} {time : TimeOfDay} :
    TimeOfDay.of? hour minute second microsecond = some time ↔ time.hour = hour ∧ time.minute = minute ∧
      time.second = second ∧ time.microsecond = microsecond := by
  constructor
  · intro h
    rw [TimeOfDay.of?] at h
    split at h <;> cases h
    exact ⟨rfl, rfl, rfl, rfl⟩
  · rintro ⟨rfl, rfl, rfl, rfl⟩
    exact time.of_self

namespace Reader

theorem exists_digit_cons_decimal (width n : Nat) (rest : List Char) :
    ∃ c tail, decimal (width + 1) n ++ rest = c :: tail ∧ c.isDigit := by
  cases hdecimal : decimal (width + 1) n with
  | nil =>
      have hlength := congrArg List.length hdecimal
      simp at hlength
  | cons c tail =>
      exact ⟨c, tail ++ rest, rfl, isDigit_of_mem_decimal (hdecimal ▸ List.mem_cons_self)⟩

theorem readDate_written (date : Date) (rest : List Char) :
    readDate (date.written ++ rest) = some (date, rest) := by
  have hyearBound : date.year < 10 ^ 4 := Nat.lt_succ_of_le date.year_le
  have hmonthBound : date.month < 10 ^ 2 := Nat.lt_of_le_of_lt date.month_le (by decide)
  have hyear := readNumeral_decimal hyearBound
  have hmonth := readNumeral_decimal hmonthBound
  have hday := readNumeral_decimal (show date.day < 10 ^ 2 from date.day_lt)
  rw [Date.written, List.append_assoc, List.cons_append, List.append_assoc, List.cons_append]
  obtain ⟨c, tail, hcons, hdigit⟩ :=
    exists_digit_cons_decimal 1 date.month ('-' :: (decimal 2 date.day ++ rest))
  have hweek : c ≠ 'W' := by
    rintro rfl
    exact absurd hdigit (by decide)
  rw [readDate, hyear]
  simp only [Option.bind_eq_bind, Option.bind_some]
  split
  · rename_i heq
    rw [hcons] at heq
    cases heq
    exact absurd rfl hweek
  · rename_i heq
    cases heq
  · rename_i heq
    cases heq
    simp only [hmonth, hday, Option.bind_some, date.of_self]
    rfl
  · rename_i hother
    exact absurd rfl (hother _)

/-- What is left of a clock to be read, in the case that nothing is: it ends here or before an offset. -/
theorem readFraction_decimal (isLast : Bool) {microsecond : Nat} (h : microsecond < 1000000) :
    readFraction isLast (decimal 6 microsecond) = some (microsecond, !isLast) := by
  have hread := readNumeral_decimal (show microsecond < 10 ^ 6 from h) []
  rw [List.append_nil] at hread
  rw [readFraction, length_fixedNumeral]
  change (readNumeral 6 (decimal 6 microsecond)).bind _ = _
  rw [hread]
  simp

theorem readSeconds_written (isLast : Bool) (hour minute : Nat) {second microsecond : Nat}
    (hsecond : second < 60) (hmicrosecond : microsecond < 1000000) :
    readSeconds true isLast hour minute (decimal 2 second ++ writtenFraction microsecond) =
      some (⟨hour, minute, second, microsecond⟩, !isLast) := by
  rw [readSeconds, readNumeral_decimal (by omega)]
  simp only [Option.bind_eq_bind, Option.bind_some]
  by_cases hwhole : microsecond = 0
  · rw [writtenFraction, if_pos hwhole, continuation, hwhole]
  · obtain ⟨c, tail, hcons, _⟩ := exists_digit_cons_decimal 5 microsecond []
    rw [List.append_nil] at hcons
    have hfraction : continuation true isLast (writtenFraction microsecond) =
        .fraction (decimal 6 microsecond) := by
      rw [writtenFraction, if_neg hwhole, hcons]
      rfl
    rw [hfraction]
    simp only [withFraction, readFraction_decimal isLast hmicrosecond, Option.map_some]

theorem continuation_colon (isLast : Bool) (width n : Nat) (rest : List Char) :
    continuation true isLast (':' :: (decimal (width + 1) n ++ rest)) =
      .field (decimal (width + 1) n ++ rest) := by
  obtain ⟨c, tail, hcons, _⟩ := exists_digit_cons_decimal width n rest
  rw [hcons]
  rfl

theorem readClock_minutes (isLast : Bool) {hour minute : Nat} (hhour : hour < 24) (hminute : minute < 60) :
    readClock isLast (decimal 2 hour ++ ':' :: decimal 2 minute) =
      some (⟨hour, minute, 0, 0⟩, !isLast) := by
  have hcolon := continuation_colon isLast 1 minute []
  have hread := readNumeral_decimal (show minute < 10 ^ 2 by omega) []
  rw [List.append_nil] at hcolon hread
  rw [readClock, readNumeral_decimal (by omega)]
  simp only [Option.bind_eq_bind, Option.bind_some, List.head?_cons, beq_self_eq_true, hcolon]
  rw [readMinutes, hread]
  rfl

theorem readClock_seconds (isLast : Bool) {hour minute second microsecond : Nat} (hhour : hour < 24)
    (hminute : minute < 60) (hsecond : second < 60) (hmicrosecond : microsecond < 1000000) :
    readClock isLast (decimal 2 hour ++ ':' :: (decimal 2 minute ++ ':' :: (decimal 2 second ++
      writtenFraction microsecond))) = some (⟨hour, minute, second, microsecond⟩, !isLast) := by
  rw [readClock, readNumeral_decimal (by omega)]
  simp only [Option.bind_eq_bind, Option.bind_some, List.head?_cons, beq_self_eq_true,
    continuation_colon]
  rw [readMinutes, readNumeral_decimal (by omega)]
  simp only [Option.bind_eq_bind, Option.bind_some, continuation_colon]
  exact readSeconds_written isLast hour minute hsecond hmicrosecond

/-- The offsets that are read as they are written. -/
def IsLegible (offset : Offset) : Prop :=
  offset.ticks = 0 ∨ 1000000 ≤ offset.ticks.natAbs

theorem readClock_offset (offset : Offset) :
    ∃ fields, readClock true (offset.written.tail) = some (fields, false) ∧
      fields.ticks = offset.ticks.natAbs := by
  have hday := offset.natAbs_lt
  rw [ticksPerDay] at hday
  simp only [Offset.written, List.cons_append, List.tail_cons]
  generalize offset.ticks.natAbs = ticks at hday
  have hhour : ticks / 3600000000 < 24 := by omega
  have hminute : ticks / 60000000 % 60 < 60 := by omega
  by_cases hwhole : ticks / 1000000 % 60 = 0 ∧ ticks % 1000000 = 0
  · refine ⟨⟨ticks / 3600000000, ticks / 60000000 % 60, 0, 0⟩, ?_, ?_⟩
    · rw [if_pos hwhole, List.append_nil]
      exact readClock_minutes true hhour hminute
    · simp only [ClockFields.ticks]
      omega
  · refine ⟨⟨ticks / 3600000000, ticks / 60000000 % 60, ticks / 1000000 % 60, ticks % 1000000⟩, ?_, ?_⟩
    · rw [if_neg hwhole, List.append_assoc, List.cons_append]
      exact readClock_seconds true hhour hminute (by omega) (by omega)
    · simp only [ClockFields.ticks]
      omega

theorem readOffset_written {offset : Offset} (h : IsLegible offset) :
    readOffset offset.written = some offset := by
  obtain ⟨fields, hread, hticks⟩ := readClock_offset offset
  obtain ⟨sign, hcons, hsign⟩ : ∃ sign, offset.written = sign :: offset.written.tail ∧
      sign = if offset.ticks < 0 then '-' else '+' := ⟨_, rfl, rfl⟩
  have hletter : sign ≠ 'Z' := by
    rw [hsign]
    split <;> decide
  rw [hcons, readOffset, hread]
  · simp only [offsetOf?, hticks]
    rcases h with hzero | hsecond
    · rw [if_pos (by omega)]
      obtain ⟨ticks, _⟩ := offset
      subst hzero
      rfl
    · have hvalue : (if sign = '-' then -1 else 1) * (offset.ticks.natAbs : Int) = offset.ticks := by
        rw [hsign]
        by_cases hnegative : offset.ticks < 0
        · rw [if_pos hnegative, if_pos rfl]
          omega
        · rw [if_neg hnegative, if_neg (by decide)]
          omega
      rw [if_neg (by omega), hvalue, Offset.of?, dif_pos offset.natAbs_lt]
  · exact hletter

theorem not_startsOffset_of_mem_time (time : TimeOfDay) :
    ∀ c ∈ time.written, !startsOffset c := by
  have hdigit : ∀ c : Char, c.isDigit → !startsOffset c := by
    intro c hc
    simp only [startsOffset, Bool.not_or, Bool.and_eq_true, Bool.not_eq_true', decide_eq_false_iff_not]
    refine ⟨⟨?_, ?_⟩, ?_⟩ <;> rintro rfl <;> exact absurd hc (by decide)
  have hnumeral : ∀ width n, ∀ c ∈ decimal width n, !startsOffset c := fun _ _ c hc =>
    hdigit c (isDigit_of_mem_decimal hc)
  have hfraction : ∀ c ∈ writtenFraction time.microsecond, !startsOffset c := by
    rw [writtenFraction]
    split
    · exact fun c hc => absurd hc List.not_mem_nil
    · exact List.forall_mem_cons.mpr ⟨by decide, hnumeral _ _⟩
  simp only [TimeOfDay.written, List.forall_mem_append, List.forall_mem_cons]
  exact ⟨⟨⟨hnumeral _ _, by decide, hnumeral _ _⟩, by decide, hnumeral _ _⟩, hfraction⟩

theorem readClock_time (isLast : Bool) (time : TimeOfDay) :
    readClock isLast time.written =
      some (⟨time.hour, time.minute, time.second, time.microsecond⟩, !isLast) := by
  have hread := readClock_seconds isLast time.hour_lt time.minute_lt time.second_lt time.microsecond_lt
  rw [TimeOfDay.written, List.append_assoc, List.append_assoc, List.cons_append, List.cons_append]
  exact hread

theorem readTime_written (time : TimeOfDay) {offset : Option Offset}
    (hoffset : ∀ known ∈ offset, IsLegible known) :
    readTime (time.written ++ (offset.map Offset.written).getD []) = some (time, offset) := by
  have htime := not_startsOffset_of_mem_time time
  cases offset with
  | none =>
      have htake : time.written.takeWhile (fun c => !startsOffset c) = time.written := by
        rw [List.takeWhile_eq_self_iff]
        exact htime
      have hdrop : time.written.dropWhile (fun c => !startsOffset c) = [] := by
        rw [List.dropWhile_eq_nil_iff]
        exact htime
      rw [Option.map_none, Option.getD_none, List.append_nil, readTime, htake, hdrop]
      rw [List.isEmpty_nil, readClock_time]
      simp only [Option.bind_eq_bind, Option.bind_some, time.of_self]
      rfl
  | some offset =>
      obtain ⟨sign, tail, hcons, hsign⟩ : ∃ sign tail, offset.written = sign :: tail ∧ startsOffset sign := by
        refine ⟨_, _, rfl, ?_⟩
        split <;> decide
      have htake : (time.written ++ offset.written).takeWhile (fun c => !startsOffset c) = time.written := by
        rw [List.takeWhile_append_of_pos htime, hcons, List.takeWhile_cons_of_neg (by simp [hsign]),
          List.append_nil]
      have hdrop : (time.written ++ offset.written).dropWhile (fun c => !startsOffset c) = offset.written := by
        rw [List.dropWhile_append_of_pos htime, hcons, List.dropWhile_cons_of_neg (by simp [hsign])]
      have hempty : offset.written.isEmpty = false := by rw [hcons, List.isEmpty_cons]
      rw [Option.map_some, Option.getD_some, readTime, htake, hdrop, hempty, readClock_time]
      simp only [Option.bind_eq_bind, Option.bind_some, time.of_self,
        readOffset_written (hoffset offset rfl)]
      rfl

end Reader

namespace DateTime

theorem ofChars_writtenChars (moment : DateTime)
    (hoffset : ∀ known ∈ moment.offset, Reader.IsLegible known) :
    ofChars? moment.writtenChars = some moment := by
  rw [ofChars?, writtenChars, List.append_assoc, List.cons_append, Reader.readDate_written]
  simp only [Option.bind_eq_bind, Option.bind_some]
  rw [Reader.readAfterDate, Reader.readTime_written moment.time hoffset]
  rfl

theorem ofString_written (moment : DateTime)
    (hoffset : ∀ known ∈ moment.offset, Reader.IsLegible known) :
    ofString? moment.written = some moment := by
  rw [ofString?, written, String.toList_ofList, ofChars_writtenChars moment hoffset]

end DateTime

end MediaCatalog.Calendar
