import MediaCatalog.Proofs.Catalog.Listing
import MediaCatalog.Proofs.Search.StableSort

/-!
Searching a source that serves a list of assets: the results are those of the whole list, whatever the length of
the pages, and the requests are one for each page and one more. An error in one of them is all that comes out.
-/

namespace MediaCatalog

open Catalog Query

variable {κ ε : Type}

/-- The search of a source that serves a list of assets in pages of a length, for a query that is not empty. -/
structure ScansAs (source : PageSource κ ε) (assets : List Asset) (length : Nat) (query : String)
    (field : Option SortField) (order : Option SortOrder) : Prop where
  refused : ∀ error, parse query = .error error →
    scan source query field order = ⟨[], .error (.query error)⟩
  found : ∀ constraint, parse query = .ok constraint →
    (scan source query field order).outcome =
        .ok (sortResults field order (selectResults constraint assets)) ∧
      ∀ sorted, IsStableSort order (selectResults constraint assets) sorted field ↔
        sorted = sortResults field order (selectResults constraint assets)
  requests : ∀ constraint, parse query = .ok constraint →
    (scan source query field order).requests.length = (assets.length + length - 1) / length + 1 ∧
      (scan source query field order).requests.head? = some none
  following : ∀ (i : Nat) (cursor next : Option κ),
    (scan source query field order).requests[i]? = some cursor →
    (scan source query field order).requests[i + 1]? = some next →
    ∃ page, source.fetch i cursor = .ok (page, next)
  fault : ∀ (faulty : PageSource κ ε) (i : Nat) (error : ε),
    i < (scan source query field order).requests.length →
    (∀ j < i, ∀ cursor, (scan source query field order).requests[j]? = some cursor →
      faulty.fetch j cursor = source.fetch j cursor) →
    (∀ cursor, (scan source query field order).requests[i]? = some cursor →
      faulty.fetch i cursor = .error error) →
    scan faulty query field order =
      ⟨(scan source query field order).requests.take (i + 1), .error (.source error)⟩

theorem scan_of_parse_error (source : PageSource κ ε) {query : String} {error : QueryError}
    (hquery : query ≠ "") (hparse : parse query = .error error) (field : Option SortField)
    (order : Option SortOrder) : scan source query field order = ⟨[], .error (.query error)⟩ := by
  rw [scan, if_neg hquery, hparse]

theorem scan_of_parse_ok (source : PageSource κ ε) {query : String} {constraint : Constraint}
    (hquery : query ≠ "") (hparse : parse query = .ok constraint) (field : Option SortField)
    (order : Option SortOrder) :
    scan source query field order = ⟨source.readAll.requests,
      (source.readAll.outcome.mapError .source).map fun assets =>
        sortResults field order (selectResults constraint assets)⟩ := by
  rw [scan, if_neg hquery, hparse]

section Outcomes

variable {source : PageSource κ ε} {assets : List Asset} {length : Nat} {query : String}

theorem scansAs_of_parse_error {error : QueryError} (hquery : query ≠ "")
    (hparse : parse query = .error error) (field : Option SortField) (order : Option SortOrder) :
    ScansAs source assets length query field order := by
  have hscan := scan_of_parse_error source hquery hparse field order
  have hrefuted : ∀ constraint, parse query ≠ .ok constraint := by
    intro constraint hconstraint
    rw [hparse] at hconstraint
    cases hconstraint
  constructor
  · intro error' herror
    rw [hparse] at herror
    rw [hscan, Except.error.inj herror]
  · intro constraint hconstraint
    exact absurd hconstraint (hrefuted constraint)
  · intro constraint hconstraint
    exact absurd hconstraint (hrefuted constraint)
  · intro i cursor next hcursor
    rw [hscan] at hcursor
    exact absurd hcursor (by simp)
  · intro faulty i error hi
    rw [hscan] at hi
    exact absurd hi (Nat.not_lt_zero i)

theorem PageSource.Serves.scansAs_of_parse_ok (h : source.Serves length assets none)
    (hlength : 1 ≤ length) {constraint : Constraint} (hquery : query ≠ "")
    (hparse : parse query = .ok constraint) (field : Option SortField) (order : Option SortOrder) :
    ScansAs source assets length query field order := by
  have hscan := fun source : PageSource κ ε => scan_of_parse_ok source hquery hparse field order
  constructor
  · intro error herror
    rw [hparse] at herror
    cases herror
  · intro constraint' hconstraint
    rw [hparse] at hconstraint
    obtain rfl := Except.ok.inj hconstraint
    constructor
    · rw [hscan, PageSource.readAll, h.outcome_eq hlength]
      rfl
    · exact fun sorted => isStableSort_iff
  · intro constraint' _
    rw [hscan]
    exact ⟨h.length_requests hlength 0, source.readFrom_requests_head 0 none⟩
  · rw [hscan]
    intro i cursor next hcursor hnext
    obtain ⟨page, _, hfetch⟩ := source.fetch_of_requests 0 none i hcursor hnext
    exact ⟨page, by rwa [Nat.zero_add] at hfetch⟩
  · intro faulty i error
    rw [hscan, hscan]
    simp only [PageSource.readAll]
    intro hi hagree hfault
    have hfaulty := PageSource.readFrom_of_fault source faulty 0 none i hi
      (by simpa only [Nat.zero_add] using hagree) (by simpa only [Nat.zero_add] using hfault)
    rw [hfaulty]
    rfl

theorem PageSource.Serves.scansAs (h : source.Serves length assets none) (hlength : 1 ≤ length)
    (hquery : query ≠ "") (field : Option SortField) (order : Option SortOrder) :
    ScansAs source assets length query field order := by
  cases hparse : parse query with
  | error error => exact scansAs_of_parse_error hquery hparse field order
  | ok constraint => exact h.scansAs_of_parse_ok hlength hquery hparse field order

end Outcomes

/-- Lists in pages, and all catalogs that can come about, are searched completely whatever the batches are. -/
theorem scan_pages :
    (∀ {ε : Type} (assets : List Asset) (pageSize : Option Nat) (batch : Nat), 1 ≤ batch →
      (∀ size ∈ pageSize, 1 ≤ size) → ∀ query field order, query ≠ "" →
      ScansAs (PageSource.ofList assets (min batch (pageSize.getD batch) : Nat) : PageSource Nat ε) assets
        (min batch (pageSize.getD batch)) query field order) ∧
    ∀ c : Connection, Reachable c → c.working.tables.isSome →
      ∃ assets : List Asset, assets.Pairwise (fun first second => first.key < second.key) ∧
        c.count = .ok assets.length ∧
        (∀ key, c.get key = .ok (assets.find? fun asset => asset.key = key)) ∧
        ∀ batch : Nat, 1 ≤ batch → batch ≤ 2 ^ 63 - 1 → ∀ query field order, query ≠ "" →
          ScansAs (c.pages batch) assets batch query field order := by
  constructor
  · intro ε assets pageSize batch hbatch hpageSize query field order hquery
    have hlength : 1 ≤ min batch (pageSize.getD batch) := by
      cases pageSize with
      | none => simpa using hbatch
      | some size => exact Nat.le_min.mpr ⟨hbatch, hpageSize size rfl⟩
    exact (PageSource.serves_ofList assets hlength none).scansAs hlength hquery field order
  · intro c hreachable htables
    obtain ⟨t, ht⟩ := Option.isSome_iff_exists.mp htables
    have hsound := hreachable.sound.working t ht
    obtain ⟨assets, hassets⟩ := t.exists_lists hsound.dates
    refine ⟨assets, hassets.ascending hsound.ascending, ?_, ?_, ?_⟩
    · rw [Connection.count, Connection.tablesFor, ht, Except.ok_map, hassets.length_eq]
    · intro key
      rw [Connection.get, Connection.tablesFor, ht]
      exact hassets.get key
    · intro batch hbatch hfits query field order hquery
      have hall : t.rowsAfter none = t.assets := List.filter_eq_self.mpr fun _ _ => rfl
      have hserves := serves_pages ht hsound hbatch hfits (hall ▸ hassets)
      exact hserves.scansAs hbatch hquery field order

end MediaCatalog
