import MediaCatalog.Catalog.Connection
import MediaCatalog.Text.Csv.Reader
import MediaCatalog.Text.Numeral

/-!
The text of a catalog file: comma separated values, one record for the versions, one that says that the tables
were made, and one for each row. The first field of a record says which it is.
-/

namespace MediaCatalog.Catalog

open Text

/-- A value that may be missing as a field; one that is there has an equals sign before it. -/
def optionalField : Option String → String
  | none => ""
  | some value => "=" ++ value

def readOptionalField (field : String) : Option (Option String) :=
  match field.toList with
  | [] => some none
  | '=' :: value => some (some (String.ofList value))
  | _ => none

namespace AssetRow

def toFields (row : AssetRow) : List String :=
  [row.key, optionalField row.checksum, row.filename, integer row.byteLength, row.mediaType,
    optionalField row.caption, optionalField row.label, optionalField row.city,
    optionalField row.region, row.importDate, optionalField row.userDate,
    optionalField row.captureDate]

def ofFields? : List String → Option AssetRow
  | [key, checksum, filename, byteLength, mediaType, caption, label, city, region, importDate,
      userDate, captureDate] => do
    return {
      key, filename, mediaType, importDate
      checksum := ← readOptionalField checksum
      byteLength := ← byteLength.toInt?
      caption := ← readOptionalField caption
      label := ← readOptionalField label
      city := ← readOptionalField city
      region := ← readOptionalField region
      userDate := ← readOptionalField userDate
      captureDate := ← readOptionalField captureDate }
  | _ => none

end AssetRow

namespace Tables

def toRecords (t : Tables) : List (List String) :=
  (t.assets.map fun row => "asset" :: row.toFields) ++ t.tags.map fun row => ["tag", row.assetKey, row.tag]

def addRecord? (t : Tables) : List String → Option Tables
  | "asset" :: fields => (AssetRow.ofFields? fields).map fun row => { t with assets := upsert row t.assets }
  | ["tag", key, tag] => some { t with tags := insertTag ⟨key, tag⟩ t.tags }
  | _ => none

end Tables

namespace Contents

def toRecords (c : Contents) : List (List String) :=
  ("versions" :: c.versions.map Nat.repr) ::
    match c.tables with
    | none => []
    | some t => ["tables"] :: t.toRecords

def ofRecords? : List (List String) → Option Contents
  | ("versions" :: versions) :: rest => do
    let versions ← versions.mapM String.toNat?
    match rest with
    | [] => return ⟨versions, none⟩
    | ["tables"] :: rows => return ⟨versions, some (← rows.foldlM Tables.addRecord? Tables.empty)⟩
    | _ => none
  | _ => none

def written (c : Contents) : String :=
  Csv.records c.toRecords

def ofString? (text : String) : Option Contents :=
  (Csv.read? text).bind ofRecords?

end Contents

end MediaCatalog.Catalog
