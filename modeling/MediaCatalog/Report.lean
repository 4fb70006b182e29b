import MediaCatalog.Asset.Basic
import MediaCatalog.Calendar.Written
import MediaCatalog.Text.Column
import MediaCatalog.Text.Csv
import MediaCatalog.Text.Numeral

/-!
Search results and counts for people to read, and results as comma separated values.
-/

namespace MediaCatalog.Report

open Text

def headings : List String :=
  ["Asset ID", "Filename", "Media Type", "Date", "Location"]

def fields (result : SearchResult) : List String :=
  [result.assetId, result.filename, result.mediaType, result.date.written,
    (result.location.map Location.written).getD ""]

def csv (results : List SearchResult) : String :=
  Csv.records (headings :: results.map fields)

/-- The width of each column that its texts fit in. -/
def widths (rows : List (List String)) : List Nat :=
  rows.foldl (fun widths row => List.zipWith (fun w text => max w text.length) widths row)
    (headings.map String.length)

def tableRow (widths : List Nat) (row : List String) : String :=
  " | ".intercalate (List.zipWith padRight widths row)

def tableLines (results : List SearchResult) : List String :=
  if results = [] then ["No matching assets."]
  else
    let rows := results.map fields
    let widths := widths rows
    tableRow widths headings ::
      "-+-".intercalate (widths.map fun w => rule w '-') ::
      rows.map (tableRow widths) ++ ["", results.length.repr ++ " matching assets"]

def countLines (counts : List (String × Int)) : List String :=
  if counts = [] then ["(none)"]
  else
    let width := (counts.map fun c => c.1.length).foldl max 0
    counts.map fun c => padRight width c.1 ++ " | " ++ padLeft 6 (integer c.2)

def assetLines (asset : Asset) : List String :=
  [ "  id:            " ++ asset.key,
    "  filename:      " ++ asset.filename,
    "  media_type:    " ++ asset.mediaType,
    "  size_bytes:    " ++ integer asset.byteLength,
    "  checksum:      " ++ asset.checksum,
    "  best_date:     " ++ asset.bestDate.written,
    "  tags:          " ++ ", ".intercalate asset.tags,
    "  location:      " ++ (asset.location.map Location.written).getD "",
    "  caption:       " ++ asset.caption.getD "" ]

/-- Lines as a text in which each one is ended. -/
def textOfLines (lines : List String) : String :=
  String.join (lines.map (· ++ "\n"))

end MediaCatalog.Report
