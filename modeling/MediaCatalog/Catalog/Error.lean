import MediaCatalog.Text.Quoted

/-!
What can go wrong with the catalog.
-/

namespace MediaCatalog.Catalog

open Text

inductive StorageFault where
  | missingTable (name : String)
  | checksumTaken
deriving DecidableEq

namespace StorageFault

def message : StorageFault → String
  | missingTable name => "no such table: " ++ name
  | checksumTaken => "UNIQUE constraint failed: assets.checksum"

end StorageFault

inductive CatalogError where
  /-- A date has no year from 1 to 9999 in universal time. -/
  | dateOutOfRange
  | numberTooLarge
  | store (key : String) (fault : StorageFault)
  | fetch (cursor : Option String) (fault : StorageFault)
  /-- A statement failed that is neither of these. -/
  | statement (fault : StorageFault)
  | unreadableDate (key : String)
deriving DecidableEq

namespace CatalogError

def message : CatalogError → String
  | dateOutOfRange => "date value out of range"
  | numberTooLarge => "Python int too large to convert to SQLite INTEGER"
  | store key fault => "Failed to store asset " ++ key ++ ": " ++ fault.message
  | fetch cursor fault =>
    "Failed to fetch assets after " ++ (cursor.map quoted).getD "None" ++ ": " ++ fault.message
  | statement fault => fault.message
  | unreadableDate key => "unreadable date of asset " ++ key

end CatalogError

end MediaCatalog.Catalog
