import MediaCatalog.Asset.Basic
import MediaCatalog.Calendar.Reader
import MediaCatalog.Calendar.Written

/-!
Rows of the catalog's two tables, and how an asset is laid down in them and put together again. Dates are stored
in the written form of universal time, so that they sort as texts. What is empty is stored as missing.
-/

namespace MediaCatalog.Catalog

open Calendar

structure AssetRow where
  key : String
  checksum : Option String
  filename : String
  byteLength : Int
  mediaType : String
  caption : Option String
  label : Option String
  city : Option String
  region : Option String
  importDate : String
  userDate : Option String
  captureDate : Option String
deriving DecidableEq

structure TagRow where
  assetKey : String
  tag : String
deriving DecidableEq

/-- The stored form of a date, if its year in universal time is one from 1 to 9999. -/
def storedDate? (date : DateTime) : Option String :=
  date.toUtc?.map DateTime.written

/-- The date with a stored form; without an offset it is one of universal time. -/
def readStoredDate? (text : String) : Option DateTime :=
  (DateTime.ofString? text).map DateTime.assumeUtc

namespace AssetRow

def ofAsset? (asset : Asset) : Option AssetRow := do
  let place := asset.location.getD {}
  let importDate ← storedDate? asset.importDate
  let userDate ← asset.userDate.mapM storedDate?
  let captureDate ← asset.captureDate.mapM storedDate?
  return {
    key := asset.key
    checksum := Location.nonempty? (some asset.checksum)
    filename := asset.filename
    byteLength := asset.byteLength
    mediaType := asset.mediaType
    caption := asset.caption
    label := Location.nonempty? place.label
    city := Location.nonempty? place.city
    region := Location.nonempty? place.region
    importDate, userDate, captureDate }

def location (row : AssetRow) : Option Location :=
  let place : Location := ⟨row.label, row.city, row.region⟩
  if place.hasValues then some place else none

def toAsset? (row : AssetRow) (tags : List String) : Option Asset := do
  let importDate ← readStoredDate? row.importDate
  let userDate ← row.userDate.mapM readStoredDate?
  let captureDate ← row.captureDate.mapM readStoredDate?
  return {
    key := row.key
    checksum := row.checksum.getD ""
    filename := row.filename
    byteLength := row.byteLength
    mediaType := row.mediaType
    tags
    importDate
    caption := row.caption
    location := row.location
    userDate
    captureDate }

/-- The stored date that counts: the user's, else the file's own, else that of the import. -/
def bestDate (row : AssetRow) : String :=
  (row.userDate <|> row.captureDate).getD row.importDate

end AssetRow

end MediaCatalog.Catalog
