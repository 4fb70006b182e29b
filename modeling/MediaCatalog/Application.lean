import MediaCatalog.Intake.Import

/-!
The application: what can be done with a catalog file and a tree of files. Each task opens the catalog, works on
it and closes it again, so that only what was committed stays.
-/

namespace MediaCatalog

open Calendar Catalog Files Intake Query Text

/-- What the application works on: the file of the catalog, the tree of files, the time, and the place of the first
stamp that no asset was given. -/
structure Application where
  catalog : Contents
  files : FileTree
  now : DateTime
  unused : Nat

inductive Statistic where
  | tags
  | places
  | years
  | mediaTypes
deriving DecidableEq

namespace Statistic

def name : Statistic → String
  | tags => "tags"
  | places => "locations"
  | years => "years"
  | mediaTypes => "types"

def all : List Statistic :=
  [tags, places, years, mediaTypes]

def ofName? (name : String) : Option Statistic :=
  all.find? fun statistic => statistic.name = name

def unknownMessage (name : String) : String :=
  "unknown statistic: " ++ name

def counts (c : Connection) : Statistic → Except CatalogError (List LabelCount)
  | tags => c.tagCounts
  | places => c.placeCounts
  | years => c.yearCounts
  | mediaTypes => c.mediaTypeCounts

end Statistic

namespace Application

def scanBatch : Int :=
  1024

def connect (app : Application) : Connection :=
  Connection.connect app.catalog

def close (app : Application) (c : Connection) : Application :=
  { app with catalog := c.committed }

/-- What a task answered, what it reported, and the application after it. -/
structure TaskRun (ε α : Type) where
  outcome : Except ε α
  log : List LogEntry
  app : Application

/-- Imports the directory at a path with the given stamps, and answers with the number of new assets. -/
def importStamped (app : Application) (stamps : Nat → Stamp) (root : FilePath) (skip : List FilePath) :
    TaskRun CatalogError Nat :=
  let (outcome, progress) :=
    Intake.importTree app.files stamps root skip app.connect app.unused
  ⟨outcome.map fun _ => progress.imported, progress.log,
    { app.close progress.connection with unused := progress.unused }⟩

/-- Imports the directory at a path now; the unique number of a stamp is its place. -/
def importTree (app : Application) (root : FilePath) (skip : List FilePath) :
    TaskRun CatalogError Nat :=
  app.importStamped (fun place => ⟨app.now, BitVec.ofNat 128 place⟩) root skip

def searchLog (query : String) (results : List SearchResult) : List LogEntry :=
  if query = "" then []
  else [LogEntry.info ("Query " ++ quoted query ++ " matched " ++ results.length.repr ++ " assets")]

def search (app : Application) (query : String) (field : Option SortField)
    (order : Option SortOrder) : TaskRun (SearchError CatalogError) (List SearchResult) :=
  let c := app.connect
  let outcome := (scan (c.pages scanBatch) query field order).outcome
  let log :=
    match outcome with
    | .ok results => searchLog query results
    | .error _ => []
  ⟨outcome, log, app.close c⟩

def statistics (app : Application) (statistic : Statistic) :
    TaskRun CatalogError (List LabelCount) :=
  let c := app.connect
  ⟨statistic.counts c, [], app.close c⟩

def getAsset (app : Application) (key : String) : TaskRun CatalogError (Option Asset) :=
  let c := app.connect
  ⟨c.get key, [], app.close c⟩

end Application

end MediaCatalog
