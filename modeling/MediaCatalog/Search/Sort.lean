import MediaCatalog.Asset.Basic
import MediaCatalog.Text.Choice

/-!
The order of search results. Sorting is stable in both directions: results with equal keys keep their order.
-/

namespace MediaCatalog

open Text

inductive SortField where
  | date
  | identifier
  | filename
  | mediaType
deriving DecidableEq

namespace SortField

def name : SortField → String
  | date => "date"
  | identifier => "identifier"
  | filename => "filename"
  | mediaType => "media-type"

def all : List SortField :=
  [date, identifier, filename, mediaType]

def ofName (name : String) : Except UnknownChoice SortField :=
  choose "SortField" name (all.map fun field => (field.name, field))

/-- Whether one result comes before another or is level with it; dates are compared as points in time and
texts by their code points. -/
def le (field : SortField) (first second : SearchResult) : Bool :=
  match field with
  | date => first.date.instant ≤ second.date.instant
  | identifier => first.assetId ≤ second.assetId
  | filename => first.filename ≤ second.filename
  | mediaType => first.mediaType ≤ second.mediaType

end SortField

inductive SortOrder where
  | ascending
  | descending
deriving DecidableEq

namespace SortOrder

def name : SortOrder → String
  | ascending => "asc"
  | descending => "desc"

def all : List SortOrder :=
  [ascending, descending]

def ofName (name : String) : Except UnknownChoice SortOrder :=
  choose "SortOrder" name (all.map fun order => (order.name, order))

end SortOrder

/-- Sorts by a field, ascending unless told otherwise. Without a field the order stays. -/
def sortResults (field : Option SortField) (order : Option SortOrder)
    (results : List SearchResult) : List SearchResult :=
  match field, order with
  | none, _ => results
  | some field, some .descending => results.mergeSort fun first second => field.le second first
  | some field, _ => results.mergeSort field.le

end MediaCatalog
