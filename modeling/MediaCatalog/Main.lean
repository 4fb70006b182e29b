import MediaCatalog.Catalog.Archive
import MediaCatalog.CommandLine.Run
import Std.Time.DateTime.Timestamp

/-!
The program. It reads the files that its arguments name into a tree, runs, prints, and writes the files that have
changed. What tags images hold about themselves is not read.
-/

namespace MediaCatalog.CommandLine

open Calendar Catalog Files

def readLink (entry : IO.FS.DirEntry) : IO (Option String) := do
  try
    return some (toString (← IO.FS.realPath entry.path))
  catch _ => return none

def kindOf (entry : IO.FS.DirEntry) : IO (Option IO.FS.FileType) := do
  try
    return some (← entry.path.symlinkMetadata).type
  catch _ => return none

def readFile (entry : IO.FS.DirEntry) : IO Entry := do
  try
    return .file entry.fileName { bytes := ← IO.FS.readBinFile entry.path }
  catch _ => return .file entry.fileName { bytes := ByteArray.empty, readable := false }

/-- What the disk has under a name, with all that is in it if it is a directory. What is neither a file nor a
directory nor a link that leads somewhere is left out. -/
partial def readEntry (entry : IO.FS.DirEntry) : IO (List Entry) := do
  match ← kindOf entry with
  | some .dir =>
    try
      let inner ← entry.path.readDir
      return [.directory entry.fileName true (← inner.toList.mapM readEntry).flatten]
    catch _ => return [.directory entry.fileName false []]
  | some .symlink => return (← readLink entry).toList.map (.link entry.fileName)
  | some .file => return [← readFile entry]
  | _ => return []

/-- The tree with what the disk has on the way along some names from the directory at `trail`, and at the end of
it, where a directory is read with all that is in it if `deep`. Links are followed. -/
partial def readAlong (deep : Bool) (tree : FileTree) (trail : List String) :
    List String → IO FileTree
  | [] => return tree
  | ".." :: rest => readAlong deep tree trail.dropLast rest
  | name :: rest => do
    let place : FilePath := ⟨.slash, trail ++ [name]⟩
    let entry : IO.FS.DirEntry := ⟨(FilePath.mk .slash trail).written, name⟩
    let put (found : List Entry) : FileTree := found.foldl (fun tree e => tree.put place e) tree
    match ← kindOf entry with
    | some .dir =>
      if deep && rest.isEmpty then return put (← readEntry entry)
      else readAlong deep (put [Entry.emptyDirectory name]) place.parts rest
    | some .symlink =>
      match ← readLink entry with
      | some target =>
        readAlong deep (put [.link name target]) [] ((FilePath.ofString target).parts ++ rest)
      | none => return tree
    | some _ => return put (← readEntry entry)
    | none => return tree

/-- The written paths that are used in doing what was asked for. With the source of an import comes all that is
in it. -/
def Invocation.paths (invocation : Invocation) : List (Bool × String) :=
  let files :=
    match invocation.task with
    | .importTree source skipFile => (true, source) :: skipFile.toList.map (false, ·)
    | .search _ _ _ csvFile => csvFile.toList.map (false, ·)
    | _ => []
  (false, invocation.catalogFile) :: invocation.logFile.toList.map (false, ·) ++ files

def Invocation.outputFiles (invocation : Invocation) : List String :=
  let csvFile :=
    match invocation.task with
    | .search _ _ _ csvFile => csvFile
    | _ => none
  invocation.logFile.toList ++ csvFile.toList

def unixEpoch : Nat :=
  daysBeforeYear 1970 * ticksPerDay

def readClock : IO DateTime := do
  let now ← Std.Time.Timestamp.now
  match DateTime.ofInstant? (now.toNanosecondsSinceUnixEpoch.val / 1000 + unixEpoch) with
  | some now => return now
  | none => throw (IO.userError "the clock shows no year from 1 to 9999")

def drawNumber : IO Nat := do
  return (← IO.getRandomBytes 15).toList.foldl (fun n byte => n * 256 + byte.toNat) 0

/-- The catalog in the file at a path without links, if it has something in it that is one. -/
def readCatalog (tree : FileTree) (path : FilePath) : Option Contents := do
  let bytes ← (tree.read path).toOption
  let text ← String.fromUTF8? bytes
  Contents.ofString? text

def readSurroundings (invocation : Invocation) : IO Surroundings := do
  let directory := FilePath.ofString (toString (← IO.currentDir))
  let files ← invocation.paths.foldlM
    (fun tree (deep, path) => readAlong deep tree [] (directory.join (FilePath.ofString path)).parts)
    (← readAlong false FileTree.empty [] directory.parts)
  let s : Surroundings := ⟨files, directory, [], ← readClock, ← drawNumber⟩
  match s.resolve invocation.catalogFile with
  | .error _ => return s
  | .ok path =>
    return { s with catalogs := (readCatalog files path).toList.map fun contents => (path, contents) }

def writeChanges (invocation : Invocation) (before after : Surroundings) : IO Unit := do
  for file in invocation.outputFiles do
    let path := after.locate (FilePath.ofString file)
    match before.files.read path, after.files.read path with
    | .ok old, .ok new => if old.data != new.data then IO.FS.writeBinFile path.written new
    | .error _, .ok new => IO.FS.writeBinFile path.written new
    | _, .error _ => pure ()
  for (path, contents) in after.catalogs do
    if before.catalogs.lookup path != some contents then
      IO.FS.writeFile path.written contents.written

def usageLine : String :=
  "usage: [--db FILE] [-v] [--log-file FILE] import SOURCE | search QUERY | stats KIND | show KEY"

end MediaCatalog.CommandLine

open MediaCatalog.CommandLine in
def main (args : List String) : IO UInt32 := do
  match readInvocation args with
  | .error .helpShown =>
    IO.println usageLine
    return 0
  | .error .usageError =>
    IO.eprintln usageLine
    return 2
  | .ok invocation =>
    let before ← readSurroundings invocation
    let outcome := runProgram args before
    IO.print outcome.printed
    writeChanges invocation before outcome.surroundings
    return UInt32.ofNat outcome.status
