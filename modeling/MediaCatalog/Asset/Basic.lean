import MediaCatalog.Asset.Location
import MediaCatalog.Calendar.DateTime

/-!
Assets, the records of the catalog, and the excerpt of them that a search shows.

Their texts are Unicode texts, and their date-times have no offset or a fixed one. Left out are texts with lone
surrogates, on which storing an asset would fail, and clocks whose offset changes with the season.
-/

namespace MediaCatalog

open Calendar

structure Asset where
  key : String
  checksum : String
  filename : String
  byteLength : Int
  mediaType : String
  tags : List String
  importDate : DateTime
  caption : Option String
  location : Option Location
  userDate : Option DateTime
  captureDate : Option DateTime
deriving DecidableEq

namespace Asset

/-- The date given by the user, else the one found in the file, else that of the import. -/
def bestDate (asset : Asset) : DateTime :=
  (asset.userDate <|> asset.captureDate).getD asset.importDate

end Asset

/-- What a search shows of an asset. -/
structure SearchResult where
  assetId : String
  filename : String
  mediaType : String
  date : DateTime
  location : Option Location
deriving DecidableEq

namespace SearchResult

def ofAsset (asset : Asset) : SearchResult where
  assetId := asset.key
  filename := asset.filename
  mediaType := asset.mediaType
  date := asset.bestDate
  location := asset.location

end SearchResult

structure LabelCount where
  label : String
  count : Nat
deriving DecidableEq

end MediaCatalog
