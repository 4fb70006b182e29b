import MediaCatalog.Proofs.Query.Padding
import MediaCatalog.Proofs.Calendar.Years
import MediaCatalog.Proofs.Catalog.Records
import MediaCatalog.Proofs.Search.Scanning

/-!
Searches for queries with white space around them. The empty query alone is not parsed, but has the results that a
query of white space has.
-/

namespace MediaCatalog

open Query

section Sources

variable {κ ε : Type}

theorem PageSource.exists_readFrom_eq_ok (source : PageSource κ ε) (request : Nat) (cursor : Option κ)
    (h : ∀ (i : Nat) (current : Option κ), (source.readFrom request cursor).requests[i]? = some current →
      ∃ read, source.fetch (request + i) current = .ok read) :
    ∃ assets, (source.readFrom request cursor).outcome = .ok assets := by
  induction request, cursor using source.page_induction with
  | h request cursor ih =>
      rcases source.readFrom_cases request cursor with
        ⟨error, hfetch, hread⟩ | ⟨_, _, hread⟩ | ⟨page, next, hfetch, hpage, hread⟩
      · obtain ⟨read, hok⟩ := h 0 cursor (by rw [hread]; rfl)
        rw [Nat.add_zero, hfetch] at hok
        cases hok
      · exact ⟨[], by rw [hread]⟩
      · obtain ⟨assets, hassets⟩ := ih page next hfetch hpage fun i current hcurrent => by
          have hstep := h (i + 1) current (by rw [hread]; exact hcurrent)
          rwa [← Nat.add_assoc, Nat.add_right_comm] at hstep
        exact ⟨page ++ assets, by rw [hread, hassets]; rfl⟩

theorem sortResults_nil (field : Option SortField) (order : Option SortOrder) : sortResults field order [] = [] := by
  rw [sortResults.eq_def]
  split <;> simp

theorem selectResults_empty (assets : List Asset) : selectResults .empty assets = [] := by
  have hfilter : assets.filter Constraint.empty.accepts = [] :=
    List.filter_eq_nil_iff.mpr fun _ _ => by simp [Constraint.accepts]
  rw [selectResults, hfilter, List.map_nil]

/-- What comes out of a search depends on the answer of the parser only. The empty query is like one of white space. -/
theorem scan_eq_ok_iff {source : PageSource κ ε} {assets : List Asset} (hread : source.readAll.outcome = .ok assets)
    (query : String) (field : Option SortField) (order : Option SortOrder) (results : List SearchResult) :
    (scan source query field order).outcome = .ok results ↔
      ∃ constraint, parse query = .ok constraint ∧
        sortResults field order (selectResults constraint assets) = results := by
  by_cases hquery : query = ""
  · have hparse : parse query = .ok .empty :=
      parse_of_lex_eq_end ((lex_eq_end_iff query).mpr (by simp [hquery]))
    simp only [scan, if_pos hquery, hparse, Except.ok.injEq, exists_eq_left', selectResults_empty, sortResults_nil]
  · cases hparse : parse query with
    | error error => simp [scan_of_parse_error source hquery hparse]
    | ok constraint =>
        rw [scan_of_parse_ok source hquery hparse, hread]
        simp [Except.mapError, Except.map]

end Sources

/-- White space around a query changes neither its constraint nor, if all requests are answered, what it finds. -/
theorem parse_scan_padded {before behind : String} (hbefore : ∀ c ∈ before.toList, c ∈ spaces)
    (hbehind : ∀ c ∈ behind.toList, c ∈ spaces) (query : String) :
    (∀ constraint, parse (before ++ query ++ behind) = .ok constraint ↔ parse query = .ok constraint) ∧
    (∀ {κ ε : Type} (source : PageSource κ ε),
      (∀ (i : Nat) (cursor : Option κ), source.readAll.requests[i]? = some cursor →
        ∃ read, source.fetch i cursor = .ok read) →
      ∀ field order results, (scan source (before ++ query ++ behind) field order).outcome = .ok results ↔
        (scan source query field order).outcome = .ok results) ∧
    ∀ {ε : Type} (assets : List Asset) (length : Int) field order results,
      (scan (PageSource.ofList assets length : PageSource Nat ε) (before ++ query ++ behind) field order).outcome =
          .ok results ↔
        (scan (PageSource.ofList assets length : PageSource Nat ε) query field order).outcome = .ok results := by
  have hpadded : (before ++ query ++ behind).toList = before.toList ++ query.toList ++ behind.toList := by
    rw [String.toList_append, String.toList_append]
  have hparse := parse_eq_ok_iff_of_spaces hbefore hbehind hpadded
  have hscan : ∀ {κ ε : Type} (source : PageSource κ ε) (field : Option SortField) (order : Option SortOrder)
      (results : List SearchResult), (∃ assets, source.readAll.outcome = .ok assets) →
      ((scan source (before ++ query ++ behind) field order).outcome = .ok results ↔
        (scan source query field order).outcome = .ok results) := by
    rintro κ ε source field order results ⟨assets, hread⟩
    simp only [scan_eq_ok_iff hread, hparse]
  refine ⟨hparse, ?_, ?_⟩
  · intro κ ε source hfetch field order results
    refine hscan source field order results (source.exists_readFrom_eq_ok 0 none ?_)
    intro i cursor hcursor
    rw [Nat.zero_add]
    exact hfetch i cursor hcursor
  · intro ε assets length field order results
    refine hscan _ field order results (PageSource.exists_readFrom_eq_ok _ 0 none ?_)
    intro i cursor _
    exact ⟨_, rfl⟩

theorem parse_scan_padded_trailing_colon :
    let source : PageSource Nat Unit := PageSource.ofList [.bare "k1" (.newYear 2020 (by decide))] 1
    parse ("\n " ++ "loc:label:" ++ "\t") = .ok (.location .label "") ∧
      (scan source ("\n " ++ "loc:label:" ++ "\t") none none).outcome =
        .ok [.ofAsset (.bare "k1" (.newYear 2020 (by decide)))] ∧
      (scan source ("\n " ++ "" ++ "\t") none none).outcome = .ok [] := by
  intro source
  have hbefore : ∀ c ∈ "\n ".toList, c ∈ spaces := by simp [spaces]
  have hbehind : ∀ c ∈ "\t".toList, c ∈ spaces := by simp [spaces]
  have hparse : parse "loc:label:" = .ok (.location .label "") := by decide +kernel
  have hread : source.readAll.outcome = .ok [.bare "k1" (.newYear 2020 (by decide))] :=
    (PageSource.serves_ofList _ (Nat.le_refl 1) none).outcome_eq (Nat.le_refl 1) 0
  have hscan : (scan source "loc:label:" none none).outcome =
      .ok [.ofAsset (.bare "k1" (.newYear 2020 (by decide)))] :=
    (scan_eq_ok_iff hread _ none none _).mpr ⟨_, hparse, by decide +kernel⟩
  refine ⟨((parse_scan_padded hbefore hbehind _).1 _).mpr hparse, ?_, ?_⟩
  · exact ((parse_scan_padded hbefore hbehind _).2.1 source (fun _ _ _ => ⟨_, rfl⟩) none none _).mpr hscan
  · exact ((parse_scan_padded hbefore hbehind _).2.2 _ 1 none none _).mpr rfl

end MediaCatalog
