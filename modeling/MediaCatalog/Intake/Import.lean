import MediaCatalog.Catalog.Connection
import MediaCatalog.Intake.Scan

/-!
The import of a directory: every file whose checksum the catalog does not know yet becomes an asset.
-/

namespace MediaCatalog.Intake

open Calendar Catalog Files

/-- The number of new assets after which an import commits. -/
def commitInterval : Nat :=
  1000

/-- What a new asset gets besides what its file tells: the time of its import, and a number of 128 bits that no other
asset gets. -/
structure Stamp where
  time : DateTime
  unique : BitVec 128

/-- How far an import has come. `unused` is the place of the first stamp that no asset was given. -/
structure Progress where
  connection : Connection
  unused : Nat
  imported : Nat
  duplicates : Nat
  log : List LogEntry

namespace Progress

def addAsset (p : Progress) (asset : Asset) : Except CatalogError Unit × Progress :=
  match p.connection.getByChecksum asset.checksum with
  | .error error => (.error error, p)
  | .ok (some _) => (.ok (), { p with duplicates := p.duplicates + 1 })
  | .ok none =>
    match p.connection.put asset with
    | (.error error, connection) => (.error error, { p with connection })
    | (.ok (), connection) =>
      let imported := p.imported + 1
      let connection := if imported % commitInterval = 0 then connection.commit else connection
      (.ok (), { p with connection, imported })

def addEvent (stamps : Nat → Stamp) (p : Progress) (event : WalkEvent) :
    Except CatalogError Unit × Progress :=
  let stamp := stamps p.unused
  let finding := examine stamp.time stamp.unique.toNat event
  let p := { p with log := p.log ++ finding.log }
  match finding.asset with
  | none => (.ok (), p)
  | some asset => { p with unused := p.unused + 1 }.addAsset asset

/-- The progress after a walk; an error of the catalog ends the import. -/
def addEvents (stamps : Nat → Stamp) : List WalkEvent → Progress → Except CatalogError Unit × Progress
  | [], p => (.ok (), p)
  | event :: events, p =>
    match p.addEvent stamps event with
    | (.ok (), p) => addEvents stamps events p
    | (.error error, p) => (.error error, p)

end Progress

/-- Imports the directory at a path and commits. An error leaves what was committed before. -/
def importTree (tree : FileTree) (stamps : Nat → Stamp) (root : FilePath) (skip : List FilePath)
    (connection : Connection) (unused : Nat) : Except CatalogError Unit × Progress :=
  let start : Progress :=
    ⟨connection, unused, 0, 0, [LogEntry.info ("Importing from " ++ root.written ++ "...")]⟩
  match start.addEvents stamps (tree.walk root skip) with
  | (.error error, p) => (.error error, p)
  | (.ok (), p) =>
    let summary := "Import complete. " ++ p.imported.repr ++ " new assets, " ++
      p.duplicates.repr ++ " duplicates skipped."
    (.ok (), { p with
      connection := p.connection.commit
      log := p.log ++ [LogEntry.info summary] })

end MediaCatalog.Intake
