import MediaCatalog.Proofs.Calendar.WrittenOrder
import MediaCatalog.Proofs.Catalog.Atomicity

/-!
Stored dates. A date is stored as a text from which the same point in time is read back, and the texts of dates are in
the order of the points in time, so that a sorted column of them runs through time. What has no stored form are the
points that universal time shows in no year from 1 to 9999.
-/

namespace MediaCatalog.Catalog

open Calendar

variable {date other : DateTime} {text text' : String}

theorem storedDate_eq_none_iff : storedDate? date = none ↔ ¬ date.InCalendar := by
  rw [← AssetRow.exists_storedDate_iff, ← Option.ne_none_iff_exists', not_not]

theorem exists_readStoredDate (h : storedDate? date = some text) :
    ∃ moment, readStoredDate? text = some moment ∧ moment.instant = date.instant := by
  obtain ⟨moment, hmoment, _⟩ := AssetRow.storedDate_eq_some_iff.mp h
  exact ⟨moment, (AssetRow.read_of_storedDate h).trans hmoment, DateTime.instant_of_toUtc hmoment⟩

theorem storedDate_lt_iff (h : storedDate? date = some text) (h' : storedDate? other = some text') :
    text < text' ↔ date.instant < other.instant := by
  obtain ⟨moment, hmoment, rfl⟩ := AssetRow.storedDate_eq_some_iff.mp h
  obtain ⟨moment', hmoment', rfl⟩ := AssetRow.storedDate_eq_some_iff.mp h'
  rw [DateTime.written_lt_iff (offset_of_toUtc hmoment) (offset_of_toUtc hmoment'), DateTime.instant_of_toUtc hmoment,
    DateTime.instant_of_toUtc hmoment']

/-- The dates without a stored form are those of a clock that is off from universal time at one end of the calendar. A
stored date is read back as the same point in time, and stored dates sort as texts by the points in time. -/
theorem storedDate_sorts_as_time (date : DateTime) :
    (storedDate? date = none ↔ date.offset.isSome ∧ ¬ date.InCalendar) ∧
      ∀ text, storedDate? date = some text →
        (∃ moment, readStoredDate? text = some moment ∧ moment.instant = date.assumeUtc.instant) ∧
          ∀ other text', storedDate? other = some text' →
            (text < text' ↔ date.assumeUtc.instant < other.assumeUtc.instant) := by
  constructor
  · rw [storedDate_eq_none_iff, iff_and_self]
    intro hout
    rw [Option.isSome_iff_ne_none]
    exact fun hnaive => hout (DateTime.inCalendar_of_naive hnaive)
  · intro text htext
    simp only [DateTime.instant_assumeUtc]
    exact ⟨exists_readStoredDate htext, fun other text' htext' => storedDate_lt_iff htext htext'⟩

theorem storedDate_sorts_as_time_fraction :
    let date : DateTime := ⟨.newYear 2021 (by decide), .ofTicks 1800000000, some ⟨3630000000, by decide⟩⟩
    let other : DateTime := ⟨⟨2020, 12, 31, by decide, by decide, by decide, by decide, by decide, by decide⟩,
      .ofTicks 84570000001, none⟩
    storedDate? date = some "2020-12-31T23:29:30+00:00" ∧
      storedDate? other = some "2020-12-31T23:29:30.000001+00:00" ∧
      (∃ moment, readStoredDate? "2020-12-31T23:29:30+00:00" = some moment ∧
        moment.instant = date.assumeUtc.instant) ∧
      ("2020-12-31T23:29:30+00:00" < "2020-12-31T23:29:30.000001+00:00" ↔
        date.assumeUtc.instant < other.assumeUtc.instant) ∧
      "2020-12-31T23:29:30+00:00" < "2020-12-31T23:29:30.000001+00:00" := by
  intro date other
  have hdate : storedDate? date = some "2020-12-31T23:29:30+00:00" := by decide +kernel +zetaReduce
  have hother : storedDate? other = some "2020-12-31T23:29:30.000001+00:00" := by decide +kernel +zetaReduce
  obtain ⟨hread, horder⟩ := (storedDate_sorts_as_time date).2 _ hdate
  have hlt := horder other _ hother
  exact ⟨hdate, hother, hread, hlt, hlt.mpr (by decide +kernel +zetaReduce)⟩

end MediaCatalog.Catalog
