import MediaCatalog.Proofs.Calendar.Years
import MediaCatalog.Proofs.Catalog.Records
import MediaCatalog.Proofs.Catalog.Tally
import MediaCatalog.Proofs.Query.Parentheses
import MediaCatalog.Proofs.Search.Scanning

/-!
Searching for the assets of a year. The query for the dates from the beginning of a year to that of the next one
finds as many assets as the catalog counts for the year.
-/

namespace MediaCatalog

open Calendar Catalog Query Text

/-- A year in four digits, as statistics show it and queries may name it. -/
def yearLabel (year : Nat) : String :=
  String.ofList (decimal 4 year)

def yearQuery (year : Nat) : String :=
  "after:" ++ yearLabel year ++ " before:" ++ yearLabel (year + 1)

theorem yearLabel_injective {first second : Nat} (hfirst : first ≤ 9999) (hsecond : second ≤ 9999)
    (h : yearLabel first = yearLabel second) : first = second :=
  fixedNumeral_injective (by decide) (Nat.lt_succ_of_le hfirst) (Nat.lt_succ_of_le hsecond)
    (String.ofList_injective h)

namespace Query

theorem isWordChar_of_mem_decimal {width n : Nat} {c : Char} (h : c ∈ decimal width n) : isWordChar c := by
  obtain ⟨digit, hdigit, rfl⟩ := exists_digit_of_mem_fixedNumeral (by decide) h
  interval_cases digit <;> decide

theorem readDate_yearLabel (year : Nat) (h : 1 ≤ year ∧ year ≤ 9999) :
    readDate (yearLabel year) = .ok (DateTime.newYear year h) := by
  have hnumeral := readNumeral_decimal (show year < 10 ^ 4 from Nat.lt_succ_of_le h.2) []
  rw [List.append_nil] at hnumeral
  have hcomplete : completeDate (decimal 4 year) = (Date.newYear year h).written ++ [] := by
    have hone : decimal 2 1 = ['0', '1'] := rfl
    rw [completeDate, hnumeral, List.append_nil, Date.written, List.append_assoc, Date.newYear, hone]
    rfl
  rw [readDate, yearLabel, String.toList_ofList, hcomplete, DateTime.ofChars?, Reader.readDate_written]
  rfl

theorem argumentTokens_decimal (width n : Nat) (text : List Char) :
    argumentTokens (decimal (width + 1) n ++ ' ' :: text) =
      argToken (String.ofList (decimal (width + 1) n)) :: operatorTokens (' ' :: text) := by
  have hword : ∀ c ∈ decimal (width + 1) n, isWordChar c := fun c hc => isWordChar_of_mem_decimal hc
  rw [argumentTokens_append hword (by decide), if_neg (by decide)]
  obtain ⟨c, tail, hcons, hdigit⟩ := Reader.exists_digit_cons_decimal width n [' ']
  rw [hcons]
  rintro _ ⟨⟩ hquote
  rcases hquote with rfl | rfl <;> exact absurd hdigit (by decide)

theorem argumentTokens_decimal_end (width n : Nat) :
    argumentTokens (decimal (width + 1) n) =
      [argToken (String.ofList (decimal (width + 1) n)), Token.endOfQuery] := by
  have hword : ∀ c ∈ decimal (width + 1) n, isWordChar c := fun c hc => isWordChar_of_mem_decimal hc
  obtain ⟨c, tail, hcons, hdigit⟩ := Reader.exists_digit_cons_decimal width n []
  rw [List.append_nil] at hcons
  rw [hcons] at hword ⊢
  apply argumentTokens_end hword
  rintro (rfl | rfl) <;> exact absurd hdigit (by decide)

theorem lex_yearQuery (year : Nat) :
    lex (yearQuery year) = [⟨.predicate, "after"⟩, colonToken, argToken (yearLabel year), ⟨.predicate, "before"⟩,
      colonToken, argToken (yearLabel (year + 1)), Token.endOfQuery] := by
  have htext : (yearQuery year).toList = ['a', 'f', 't', 'e', 'r'] ++ ':' :: (decimal 4 year ++ ' ' ::
      (['b', 'e', 'f', 'o', 'r', 'e'] ++ ':' :: decimal 4 (year + 1))) := by
    simp [yearQuery, yearLabel, String.toList_append]
  have hafter : ['a', 'f', 't', 'e', 'r'].all isLetter := by decide +kernel
  have hbefore : ['b', 'e', 'f', 'o', 'r', 'e'].all isLetter := by decide +kernel
  have hspace : ∀ text, operatorTokens (' ' :: 'b' :: text) = lexChars ('b' :: text) := by
    intro text
    rw [operatorTokens_eq]
    rfl
  rw [lex, htext, lexChars_word (List.all_eq_true.mp hafter), argumentTokens_decimal, List.cons_append, hspace,
    ← List.cons_append, lexChars_word (List.all_eq_true.mp hbefore), argumentTokens_decimal_end]
  rfl

theorem buildPredicate_single {keyword value : String} {build : String → Except QueryError Constraint}
    (hkeyword : keyword ≠ "loc") (hbuild : singlePredicate? keyword = some build) :
    buildPredicate keyword [value] = build value := by
  simp only [buildPredicate, if_neg hkeyword, hbuild]

theorem parse_yearQuery {year : Nat} (h : 1 ≤ year ∧ year ≤ 9999) (h' : 1 ≤ year + 1 ∧ year + 1 ≤ 9999) :
    parse (yearQuery year) =
      .ok (.and (.onOrAfter (DateTime.newYear year h)) (.before (DateTime.newYear (year + 1) h'))) := by
  have hafter : Atom.build ⟨"after", [], some (yearLabel year)⟩ = .ok (.onOrAfter (DateTime.newYear year h)) := by
    refine (buildPredicate_single (show "after" ≠ "loc" by decide) rfl).trans ?_
    rw [Option.getD_some, readDate_yearLabel year h, Except.ok_map]
  have hbefore : Atom.build ⟨"before", [], some (yearLabel (year + 1))⟩ =
      .ok (.before (DateTime.newYear (year + 1) h')) := by
    refine (buildPredicate_single (show "before" ≠ "loc" by decide) rfl).trans ?_
    rw [Option.getD_some, readDate_yearLabel (year + 1) h', Except.ok_map]
  rw [parse_of_lex_eq (.single (.and (.single (.atom 0 ⟨"after", [], some (yearLabel year)⟩)) false
    (.atom 0 ⟨"before", [], some (yearLabel (year + 1))⟩)))]
  · rw [Expression.parsed, Conjunction.parsed, Conjunction.parsed, Operand.parsed, hafter, Operand.parsed, hbefore]
    rfl
  · rw [lex_yearQuery]
    rfl

end Query

theorem accepts_year_iff {asset : Asset} (hutc : asset.bestDate.offset = some Offset.utc) {year : Nat}
    (h : 1 ≤ year ∧ year ≤ 9999) (h' : 1 ≤ year + 1 ∧ year + 1 ≤ 9999) :
    (Constraint.and (.onOrAfter (DateTime.newYear year h)) (.before (DateTime.newYear (year + 1) h'))).accepts asset ↔
      asset.bestDate.date.year = year := by
  have hafter := DateTime.newYear_le_iff hutc h
  have hbefore := DateTime.newYear_le_iff hutc h'
  simp only [Constraint.accepts, Bool.and_eq_true, decide_eq_true_eq]
  omega

theorem map_yearLabel {t : Tables} (hsound : t.Sound) {assets : List Asset} (hassets : t.Lists t.assets assets) :
    assets.map (fun asset => yearLabel asset.bestDate.date.year) =
      t.assets.map fun row => String.ofList (row.bestDate.toList.take 4) := by
  refine hassets.map_eq ?_
  intro row hrow asset hasset
  have hbest := AssetRow.exists_written_bestDate (hsound.dates row hrow) (Tables.assetOf_eq_ok_iff.mp hasset)
  rw [hbest.2, DateTime.take_written, yearLabel]

theorem count_yearLabel {t : Tables} (hsound : t.Sound) {assets : List Asset} (hassets : t.Lists t.assets assets)
    {year : Nat} (h : 1 ≤ year ∧ year ≤ 9999) (h' : 1 ≤ year + 1 ∧ year + 1 ≤ 9999) :
    (t.assets.map fun row => String.ofList (row.bestDate.toList.take 4)).count (yearLabel year) =
      (assets.filter (Constraint.and (.onOrAfter (DateTime.newYear year h))
        (.before (DateTime.newYear (year + 1) h'))).accepts).length := by
  rw [← map_yearLabel hsound hassets, ← List.countP_eq_length_filter, List.count, List.countP_map]
  apply List.countP_congr
  intro asset hasset
  obtain ⟨row, hrow, hread⟩ := hassets.mem_iff.mp hasset
  have hbest := AssetRow.exists_written_bestDate (hsound.dates row hrow) (Tables.assetOf_eq_ok_iff.mp hread)
  rw [accepts_year_iff hbest.1 h h', Function.comp, beq_iff_eq]
  constructor
  · exact yearLabel_injective asset.bestDate.date.year_le h.2
  · rintro rfl
    rfl

/-- A search for a year finds as many assets as the statistics count for it. -/
theorem length_scan_yearQuery {c : Connection} (hc : Reachable c) (htables : c.working.tables.isSome) {year : Nat}
    (hyear : 1 ≤ year) (hlast : year ≤ 9998) {batch : Nat} (hbatch : 1 ≤ batch) (hfits : batch ≤ 2 ^ 63 - 1)
    (field : Option SortField) (order : Option SortOrder) :
    ∃ results counts, (scan (c.pages batch) (yearQuery year) field order).outcome = .ok results ∧
      c.yearCounts = .ok counts ∧
      (∀ entry ∈ counts, entry.label = yearLabel year → entry.count = results.length) ∧
      ((∀ entry ∈ counts, entry.label ≠ yearLabel year) → results.length = 0) := by
  obtain ⟨t, ht⟩ := Option.isSome_iff_exists.mp htables
  have hsound := hc.sound.working t ht
  obtain ⟨assets, hassets⟩ := t.exists_lists hsound.dates
  have hthis : 1 ≤ year ∧ year ≤ 9999 := ⟨hyear, by omega⟩
  have hnext : 1 ≤ year + 1 ∧ year + 1 ≤ 9999 := ⟨by omega, by omega⟩
  have hparse := parse_yearQuery hthis hnext
  have hquery : yearQuery year ≠ "" := by simp [yearQuery]
  have hall : t.rowsAfter none = t.assets := List.filter_eq_self.mpr fun _ _ => rfl
  have hserves := serves_pages ht hsound hbatch hfits (hall ▸ hassets)
  have hscan := hserves.scansAs_of_parse_ok hbatch hquery hparse field order
  have hcounts : c.yearCounts = .ok t.yearCounts := by
    rw [Connection.yearCounts, Connection.tablesFor, ht, Except.ok_map]
  refine ⟨_, t.yearCounts, (hscan.found _ hparse).1, hcounts, ?_, ?_⟩
  · intro entry hentry hlabel
    rw [length_sortResults, selectResults, List.length_map, ← count_yearLabel hsound hassets hthis hnext, ← hlabel]
    exact count_of_mem_tally hentry
  · intro hnone
    rw [length_sortResults, selectResults, List.length_map, ← count_yearLabel hsound hassets hthis hnext]
    exact count_eq_zero_of_tally hnone

theorem length_scan_yearQuery_half_past_midnight :
    let imported : DateTime := ⟨.newYear 2021 (by decide), .ofTicks 1800000000, some ⟨3600000000, by decide⟩⟩
    let c := Connection.new.performAll [.put (.bare "a" imported), .put (.bare "b" (.newYear 2021 (by decide)))]
    Reachable c ∧ c.working.tables.isSome ∧ c.yearCounts = .ok [⟨"2020", 1⟩, ⟨"2021", 1⟩] ∧
      ∃ results, (scan (c.pages 1) (yearQuery 2020) none none).outcome = .ok results ∧ results.length = 1 := by
  intro imported c
  have hc : Reachable c := Reachable.new.performAll _
  have htables : c.working.tables.isSome := by decide +kernel +zetaReduce
  have hyears : c.yearCounts = .ok [⟨"2020", 1⟩, ⟨"2021", 1⟩] := by decide +kernel +zetaReduce
  obtain ⟨results, counts, hscan, hcounts, hlength, _⟩ :=
    length_scan_yearQuery hc htables (show 1 ≤ 2020 by decide) (by decide) le_rfl (by decide) none none
  obtain rfl := Except.ok.inj (hcounts.symm.trans hyears)
  have hlabel : "2020" = yearLabel 2020 := by decide +kernel
  exact ⟨hc, htables, hyears, results, hscan, (hlength ⟨"2020", 1⟩ List.mem_cons_self hlabel).symm⟩

end MediaCatalog
