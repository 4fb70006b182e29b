import MediaCatalog.Catalog.Tables
import MediaCatalog.Search.Scan

/-!
A connection to the catalog. Writing opens a transaction, and what is written in it is lost again unless it is
committed. Dropping the tables opens none, but belongs to one that is open.
-/

namespace MediaCatalog.Catalog

/-- What a catalog file holds: the rows of the table of schema versions, and the other tables, if they were
made. -/
structure Contents where
  versions : List Nat
  tables : Option Tables
deriving DecidableEq

namespace Contents

def new : Contents :=
  ⟨[], none⟩

def schemaVersion : Nat :=
  1

def withSchema (c : Contents) : Contents where
  versions := if c.versions.isEmpty then [schemaVersion] else c.versions
  tables := some (c.tables.getD Tables.empty)

end Contents

/-- A connection: what is committed, what the statements see, whether a transaction is open, and whether the
statement that stores assets was prepared, for which the tables have to be there. -/
structure Connection where
  committed : Contents
  working : Contents
  inTransaction : Bool
  storePrepared : Bool
deriving DecidableEq

namespace Connection

def commit (c : Connection) : Connection :=
  { c with committed := c.working, inTransaction := false }

def rollback (c : Connection) : Connection :=
  { c with working := c.committed, inTransaction := false }

def initSchema (c : Connection) : Connection :=
  { c with working := c.working.withSchema }.commit

def connect (file : Contents) : Connection :=
  initSchema ⟨file, file, false, false⟩

def reopen (c : Connection) : Connection :=
  connect c.committed

def new : Connection :=
  connect Contents.new

def beginWrite (c : Connection) : Connection :=
  { c with inTransaction := true }

def withTables (c : Connection) (t : Tables) : Connection :=
  { c.beginWrite with working := { c.working with tables := some t } }

def fitsInteger (n : Int) : Bool :=
  -9223372036854775808 ≤ n && n ≤ 9223372036854775807

def prepareStore (c : Connection) : Connection :=
  { c with storePrepared := true }

/-- Stores an asset in place of the one with its key. If it cannot be stored, nothing that is stored changes. A
prepared statement looks at its numbers before it looks for the tables. -/
def put (asset : Asset) (c : Connection) : Except CatalogError Unit × Connection :=
  match AssetRow.ofAsset? asset with
  | none => (.error .dateOutOfRange, c)
  | some row =>
    match c.working.tables with
    | none =>
      if c.storePrepared && !fitsInteger asset.byteLength then (.error .numberTooLarge, c)
      else (.error (.store asset.key (.missingTable "assets")), c)
    | some t =>
      let c := c.prepareStore
      if !fitsInteger asset.byteLength then (.error .numberTooLarge, c.beginWrite)
      else
        match t.put row asset.tags with
        | .ok t => (.ok (), c.withTables t)
        | .error fault => (.error (.store asset.key fault), c.beginWrite)

def store : List Asset → Connection → Except CatalogError Unit × Connection
  | [], c => (.ok (), c)
  | asset :: rest, c =>
    match c.put asset with
    | (.ok (), c) => store rest c
    | (.error error, c) => (.error error, c)

def delete (key : String) (c : Connection) : Except CatalogError Unit × Connection :=
  match c.working.tables with
  | none => (.error (.statement (.missingTable "asset_tags")), c)
  | some t => (.ok (), c.withTables (t.delete key))

def dropTables (c : Connection) : Except CatalogError Unit × Connection :=
  match c.working.tables with
  | none => (.error (.statement (.missingTable "asset_tags")), c)
  | some _ =>
    let c := { c with working := { c.working with tables := none } }
    (.ok (), if c.inTransaction then c else c.commit)

/-- The tables that a statement reads, or the error that `name` is missing. -/
def tablesFor (c : Connection) (name : String) : Except CatalogError Tables :=
  match c.working.tables with
  | none => .error (.statement (.missingTable name))
  | some t => .ok t

def count (c : Connection) : Except CatalogError Nat :=
  (c.tablesFor "assets").map fun t => t.assets.length

def get (c : Connection) (key : String) : Except CatalogError (Option Asset) := do
  (← c.tablesFor "assets").get key

def getByChecksum (c : Connection) (checksum : String) : Except CatalogError (Option Asset) := do
  (← c.tablesFor "assets").getByChecksum checksum

/-- A page of at most `limit` assets after a cursor, or of all if the limit is negative, and the cursor of the
next page. -/
def fetch (c : Connection) (cursor : Option String) (limit : Int) :
    Except CatalogError (List Asset × Option String) :=
  match c.working.tables with
  | none => .error (.fetch cursor (.missingTable "assets"))
  | some t => if fitsInteger limit then t.page cursor limit else .error .numberTooLarge

def tagCounts (c : Connection) : Except CatalogError (List LabelCount) :=
  (c.tablesFor "asset_tags").map Tables.tagCounts

def placeCounts (c : Connection) : Except CatalogError (List LabelCount) :=
  (c.tablesFor "assets").map Tables.placeCounts

def yearCounts (c : Connection) : Except CatalogError (List LabelCount) :=
  (c.tablesFor "assets").map Tables.yearCounts

def mediaTypeCounts (c : Connection) : Except CatalogError (List LabelCount) :=
  (c.tablesFor "assets").map Tables.mediaTypeCounts

def ahead (c : Connection) (cursor : Option String) : Nat :=
  match c.working.tables with
  | none => 0
  | some t => (t.rowsAfter cursor).length

theorem exists_tables_of_fetch {c : Connection} {limit : Int} {cursor next : Option String}
    {page : List Asset} (hfetch : c.fetch cursor limit = .ok (page, next)) :
    ∃ t, c.working.tables = some t ∧ t.page cursor limit = .ok (page, next) := by
  unfold fetch at hfetch
  split at hfetch
  · simp at hfetch
  · rename_i t ht
    split at hfetch
    · exact ⟨t, ht, hfetch⟩
    · simp at hfetch

theorem ahead_lt_of_fetch {c : Connection} {limit : Int} {cursor next : Option String}
    {page : List Asset} (hfetch : c.fetch cursor limit = .ok (page, next)) (hpage : page ≠ []) :
    c.ahead next < c.ahead cursor := by
  obtain ⟨t, ht, hfetch⟩ := exists_tables_of_fetch hfetch
  simp only [ahead, ht]
  exact Tables.length_rowsAfter_lt_of_page hfetch hpage

/-- The catalog as a source of pages of at most `limit` assets. -/
def pages (c : Connection) (limit : Int) : PageSource String CatalogError where
  fetch _ cursor := c.fetch cursor limit
  ahead := c.ahead
  ahead_lt := ahead_lt_of_fetch

end Connection

end MediaCatalog.Catalog
