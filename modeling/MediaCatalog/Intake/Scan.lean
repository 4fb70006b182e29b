import MediaCatalog.Asset.Basic
import MediaCatalog.Files.Checksum
import MediaCatalog.Files.Walk
import MediaCatalog.Intake.AssetKey
import MediaCatalog.Intake.CaptureDate
import MediaCatalog.Log

/-!
New assets from the files of a directory. Files that cannot be read are reported and passed over, and so are
the resource forks that some systems leave beside files.
-/

namespace MediaCatalog.Intake

open Calendar Files Media

/-- Whether a file is a resource fork and no medium. -/
def isResourceFork (path : FilePath) : Bool :=
  "._".toList.isPrefixOf path.name.toList

/-- What became of a file or directory that a walk met: reports, and a new asset if there is one. -/
structure Finding where
  log : List LogEntry
  asset : Option Asset

namespace Finding

def nothing : Finding :=
  ⟨[], none⟩

end Finding

def contentChecksum (path : FilePath) (content : FileContent) : Except ChecksumError String :=
  if content.readable then .ok (checksumOf content.bytes) else .error ⟨path, .denied⟩

/-- The asset of a file of the given checksum that is imported at `now` and gets the number `unique`. -/
def newAsset (now : DateTime) (unique : Nat) (path : FilePath) (content : FileContent)
    (checksum : String) : Finding :=
  let mediaType := inferMediaType path
  let (log, captureDate) :=
    match fileCaptureDate mediaType content with
    | .ok date => ([], date)
    | .error reason =>
      ([LogEntry.warning ("ExifRead failed for " ++ path.written ++ ": " ++ reason)], none)
  ⟨log, some {
    key := newAssetKey now mediaType (Text.lower (extension path.name)) unique
    checksum
    filename := path.name
    byteLength := content.bytes.size
    mediaType
    tags := []
    importDate := now
    caption := none
    location := none
    userDate := none
    captureDate }⟩

def examine (now : DateTime) (unique : Nat) : WalkEvent → Finding
  | .unlistable path => ⟨[LogEntry.warning ("Permission denied: " ++ path.written)], none⟩
  | .file path content =>
    if isResourceFork path then Finding.nothing
    else
      match contentChecksum path content with
      | .ok checksum => newAsset now unique path content checksum
      | .error error =>
        ⟨[LogEntry.error ("Failed to scan " ++ path.written ++ ": " ++ error.message)], none⟩

/-- What becomes of all that a walk met, and the first number that is still unused. Numbers are given to
assets in their order. -/
def examineAll (now : DateTime) (unique : Nat) : List WalkEvent → List Finding × Nat
  | [] => ([], unique)
  | event :: events =>
    let finding := examine now unique event
    let (findings, next) :=
      examineAll now (if finding.asset.isSome then unique + 1 else unique) events
    (finding :: findings, next)

end MediaCatalog.Intake
