import MediaCatalog.Proofs.Calendar.Instants
import MediaCatalog.Proofs.Query.Written
import MediaCatalog.Proofs.Search.Years

/-!
Searching for dates as they are written. A written date-time in quotes is read back by a query, so that the assets from
that point in time on can be asked for, and those before it.
-/

namespace MediaCatalog

open Calendar Query Text

/-- The characters that written dates are made of. -/
def IsDateChar (c : Char) : Prop :=
  c.isDigit ∨ c ∈ ['-', 'T', ':', '.', '+']

instance : DecidablePred IsDateChar :=
  fun c => inferInstanceAs (Decidable (c.isDigit ∨ c ∈ ['-', 'T', ':', '.', '+']))

theorem isDateChar_decimal (width n : Nat) : ∀ c ∈ decimal width n, IsDateChar c :=
  fun _ hc => .inl (isDigit_of_mem_decimal hc)

theorem isDateChar_fraction (microsecond : Nat) : ∀ c ∈ writtenFraction microsecond, IsDateChar c := by
  rw [writtenFraction]
  split
  · exact fun c hc => absurd hc List.not_mem_nil
  · exact List.forall_mem_cons.mpr ⟨.inr (by decide), isDateChar_decimal 6 microsecond⟩

theorem isDateChar_offset (offset : Offset) : ∀ c ∈ offset.written, IsDateChar c := by
  simp only [Offset.written, List.forall_mem_append, List.forall_mem_cons, List.cons_append]
  refine ⟨?_, ⟨isDateChar_decimal _ _, .inr (by decide), isDateChar_decimal _ _⟩, ?_⟩
  · split <;> exact .inr (by decide)
  · split
    · exact fun c hc => absurd hc List.not_mem_nil
    · simp only [List.forall_mem_append, List.forall_mem_cons]
      exact ⟨.inr (by decide), isDateChar_decimal _ _, isDateChar_fraction _⟩

theorem isDateChar_written (moment : DateTime) : ∀ c ∈ moment.written.toList, IsDateChar c := by
  rw [DateTime.written, String.toList_ofList]
  simp only [DateTime.writtenChars, Date.written, TimeOfDay.written, List.forall_mem_append, List.forall_mem_cons]
  refine ⟨⟨⟨⟨isDateChar_decimal _ _, .inr (by decide), isDateChar_decimal _ _⟩, .inr (by decide),
    isDateChar_decimal _ _⟩, .inr (by decide), ⟨⟨isDateChar_decimal _ _, .inr (by decide), isDateChar_decimal _ _⟩,
    .inr (by decide), isDateChar_decimal _ _⟩, isDateChar_fraction _⟩, ?_⟩
  cases moment.offset with
  | none => exact fun c hc => absurd hc List.not_mem_nil
  | some offset => exact isDateChar_offset offset

namespace Query

theorem completeDate_writtenChars (moment : DateTime) : completeDate moment.writtenChars = moment.writtenChars := by
  have hyear : moment.date.year < 10 ^ 4 := Nat.lt_succ_of_le moment.date.year_le
  have hmonth : moment.date.month < 10 ^ 2 := Nat.lt_of_le_of_lt moment.date.month_le (by decide)
  obtain ⟨rest, hrest⟩ : ∃ rest, moment.writtenChars =
      decimal 4 moment.date.year ++ '-' :: (decimal 2 moment.date.month ++ '-' :: rest) := by
    rw [DateTime.writtenChars, Date.written, List.append_assoc, List.append_assoc, List.append_assoc]
    exact ⟨_, rfl⟩
  -- Behind the month there is a day, so that the text is neither a year nor a month.
  rw [hrest, completeDate, readNumeral_decimal hyear]
  simp only [readNumeral_decimal hmonth]

theorem readDate_written {moment : DateTime} (hoffset : ∀ offset ∈ moment.offset, Reader.IsLegible offset) :
    readDate moment.written = .ok moment.assumeUtc := by
  rw [readDate, DateTime.written, String.toList_ofList, completeDate_writtenChars,
    DateTime.ofChars_writtenChars moment hoffset]

theorem parse_quoted {keyword value : String} {c : Constraint} (hbuild : buildPredicate keyword [value] = .ok c)
    (hbackslash : '\\' ∉ value.toList) (hquote : '"' ∉ value.toList) :
    parse (keyword ++ ":\"" ++ value ++ "\"") = .ok c := by
  let leaf : Leaf := ⟨keyword, [], value, c, hbuild, .of_not_mem hbackslash⟩
  have hwritten : keyword ++ ":\"" ++ value ++ "\"" = String.ofList (Formula.leaf leaf).written := by
    rw [← String.toList_inj, String.toList_ofList]
    simp [Formula.written, Leaf.written, leaf, escaped_of_not_mem hquote]
  rw [hwritten, parse_of_lex_eq _ (lex_written _)]
  exact (parsed_expression _).1

end Query

/-- The query for a predicate of dates with a written date in quotes. -/
def dateQuery (keyword : String) (moment : DateTime) : String :=
  keyword ++ ":\"" ++ moment.written ++ "\""

theorem parse_dateQuery {keyword : String} {build : DateTime → Constraint} (hkeyword : keyword ≠ "loc")
    (hbuild : singlePredicate? keyword = some fun value => (readDate value).map build) {moment : DateTime}
    (hoffset : ∀ offset ∈ moment.offset, Reader.IsLegible offset) :
    parse (dateQuery keyword moment) = .ok (build moment.assumeUtc) := by
  have hchars := isDateChar_written moment
  apply parse_quoted
  · rw [buildPredicate_single hkeyword hbuild, readDate_written hoffset, Except.ok_map]
  · exact fun h => absurd (hchars _ h) (by decide)
  · exact fun h => absurd (hchars _ h) (by decide)

theorem isLegible_of_seconds {offset : Offset} (h : offset.ticks % 1000000 = 0) : Reader.IsLegible offset := by
  rw [Reader.IsLegible]
  omega

/-- A date written in quotes is the one that is searched for: `after` finds the assets from that point in time on, and
`before` all others. -/
theorem search_writtenDate (moment : DateTime) (hoffset : ∀ offset ∈ moment.offset, offset.ticks % 1000000 = 0) :
    ∃ date, date.instant = moment.assumeUtc.instant ∧
      parse (dateQuery "after" moment) = .ok (.onOrAfter date) ∧
      parse (dateQuery "before" moment) = .ok (.before date) ∧
      ∀ asset : Asset,
        ((Constraint.onOrAfter date).accepts asset ↔
          moment.assumeUtc.instant ≤ asset.bestDate.assumeUtc.instant) ∧
        ((Constraint.before date).accepts asset ↔ ¬ (Constraint.onOrAfter date).accepts asset) := by
  have hlegible : ∀ offset ∈ moment.offset, Reader.IsLegible offset := fun offset hmem =>
    isLegible_of_seconds (hoffset offset hmem)
  refine ⟨moment.assumeUtc, rfl, parse_dateQuery (by decide) rfl hlegible, parse_dateQuery (by decide) rfl hlegible, ?_⟩
  intro asset
  rw [Constraint.accepts, Constraint.accepts, decide_eq_true_eq, decide_eq_true_eq, Int.not_le,
    asset.bestDate.instant_assumeUtc]
  exact ⟨Iff.rfl, Iff.rfl⟩

/-- The first date of the calendar on a clock that is ahead lies before all that universal time shows. -/
theorem search_writtenDate_before_calendar :
    let moment : DateTime := ⟨.newYear 1 (by decide), .midnight, some ⟨86399000000, by decide⟩⟩
    dateQuery "after" moment = "after:\"0001-01-01T00:00:00+23:59:59\"" ∧
      (∀ offset ∈ moment.offset, offset.ticks % 1000000 = 0) ∧ moment.toUtc? = none ∧
      ∃ date, date.instant = moment.assumeUtc.instant ∧
        parse (dateQuery "after" moment) = .ok (.onOrAfter date) ∧
        parse (dateQuery "before" moment) = .ok (.before date) ∧
        ∀ asset : Asset,
          ((Constraint.onOrAfter date).accepts asset ↔
            moment.assumeUtc.instant ≤ asset.bestDate.assumeUtc.instant) ∧
          ((Constraint.before date).accepts asset ↔ ¬ (Constraint.onOrAfter date).accepts asset) := by
  intro moment
  have hoffset : ∀ offset ∈ moment.offset, offset.ticks % 1000000 = 0 := by
    rintro offset ⟨⟩
    rfl
  exact ⟨by decide +kernel +zetaReduce, hoffset, by decide +kernel +zetaReduce, search_writtenDate moment hoffset⟩

end MediaCatalog
