import MediaCatalog.Query.Parser
import MediaCatalog.Search.Pages
import MediaCatalog.Search.Sort

/-!
Searching: every asset of a source is held against the constraint of a query. There are no partial results; the
first error ends the search.
-/

namespace MediaCatalog

open Query

inductive SearchError (ε : Type) where
  | query (error : QueryError)
  | source (error : ε)

/-- The requests that were made, by their cursors, and what came out in the end. -/
structure ScanRun (κ ε α : Type) where
  requests : List (Option κ)
  outcome : Except ε α

namespace PageSource

variable {κ ε : Type}

def readFrom (source : PageSource κ ε) (request : Nat) (cursor : Option κ) :
    ScanRun κ ε (List Asset) :=
  match _ : source.fetch request cursor with
  | .error error => ⟨[cursor], .error error⟩
  | .ok (page, next) =>
    if page = [] then ⟨[cursor], .ok []⟩
    else
      let run := source.readFrom (request + 1) next
      ⟨cursor :: run.requests, run.outcome.map (page ++ ·)⟩
termination_by source.ahead cursor
decreasing_by
  rename_i hfetch hpage
  exact source.ahead_lt hfetch hpage

def readAll (source : PageSource κ ε) : ScanRun κ ε (List Asset) :=
  source.readFrom 0 none

end PageSource

/-- The results for the assets that a constraint accepts, in their order. -/
def selectResults (constraint : Constraint) (assets : List Asset) : List SearchResult :=
  (assets.filter constraint.accepts).map SearchResult.ofAsset

/-- Searches a source. An empty query has no results, and nothing is asked of the source for it. -/
def scan {κ ε : Type} (source : PageSource κ ε) (query : String) (field : Option SortField)
    (order : Option SortOrder) : ScanRun κ (SearchError ε) (List SearchResult) :=
  if query = "" then ⟨[], .ok []⟩
  else
    match parse query with
    | .error error => ⟨[], .error (.query error)⟩
    | .ok constraint =>
      let run := source.readAll
      ⟨run.requests, (run.outcome.mapError .source).map fun assets =>
        sortResults field order (selectResults constraint assets)⟩

end MediaCatalog
