import MediaCatalog.CommandLine.Invocation
import MediaCatalog.Files.SkipList
import MediaCatalog.Report

/-!
Running the program: what it prints, which files it writes and how it ends.
-/

namespace MediaCatalog.CommandLine

open Calendar Catalog Files

inductive Output where
  | log (entry : LogEntry)
  | line (text : String)

namespace Output

def written : Output → String
  | log entry => entry.written ++ "\n"
  | line text => text ++ "\n"

def logged : Output → String
  | log entry => entry.written ++ "\n"
  | line _ => ""

end Output

/-- The surroundings of the program: all files, the directory it runs in, the catalogs by their paths, the time
and the first number that no asset was given. -/
structure Surroundings where
  files : FileTree
  directory : FilePath
  catalogs : List (FilePath × Contents)
  now : DateTime
  unused : Nat

namespace Surroundings

def locate (s : Surroundings) (path : FilePath) : FilePath :=
  s.directory.join path

def resolve (s : Surroundings) (path : String) : Except FileFault FilePath :=
  s.files.realPath (s.locate (FilePath.ofString path))

/-- The catalog in the file at a path without links. An empty file is a new catalog, and so is one that is yet
to be made in a directory that is there. -/
def openCatalog? (s : Surroundings) (path : FilePath) : Option Contents :=
  match s.catalogs.lookup path with
  | some contents => some contents
  | none =>
    match s.files.find path with
    | .ok (.file _ content) => if content.bytes.size = 0 then some Contents.new else none
    | .ok _ => none
    | .error _ =>
      match s.files.find { path with parts := path.parts.dropLast } with
      | .ok (.directory _ _ _) => some Contents.new
      | _ => none

def application (s : Surroundings) (contents : Contents) : Application :=
  ⟨contents, s.files, s.now, s.unused⟩

def update (s : Surroundings) (path : FilePath) (app : Application) : Surroundings :=
  { s with
    catalogs := (path, app.catalog) :: s.catalogs.filter fun entry => entry.1 ≠ path
    unused := app.unused }

def writeText (s : Surroundings) (path : FilePath) (text : String) :
    Except FileFault Surroundings :=
  (s.files.write (s.locate path) text.toUTF8).map fun files => { s with files }

def appendText (s : Surroundings) (path : FilePath) (text : String) :
    Except FileFault Surroundings :=
  let before := ((s.files.read (s.locate path)).toOption).getD ByteArray.empty
  (s.files.write (s.locate path) (before ++ text.toUTF8)).map fun files => { s with files }

end Surroundings

inductive Ending where
  | done
  | notFound
  | invalidQuery (error : Query.QueryError)
  /-- An error that the program has no answer to. -/
  | fatal

namespace Ending

def status : Ending → Nat
  | done => 0
  | _ => 1

def outputs : Ending → List Output
  | invalidQuery error => [.log (LogEntry.error ("Invalid query: " ++ error.message))]
  | fatal => [.log (LogEntry.error "Fatal error.")]
  | _ => []

end Ending

structure Run where
  ending : Ending
  outputs : List Output
  surroundings : Surroundings

def Run.fatal (s : Surroundings) : Run :=
  ⟨.fatal, [], s⟩

/-- Opens the catalog at a path, does a task with it, and goes on to present what came out. -/
def withCatalog {ε α : Type} (s : Surroundings) (path : FilePath)
    (task : Application → Application.TaskRun ε α)
    (present : Except ε α → Surroundings → Run) : Run :=
  let connecting := Output.log (LogEntry.info ("Connecting to database: " ++ path.written))
  match s.openCatalog? path with
  | none => ⟨.fatal, [connecting], s⟩
  | some contents =>
    let done := task (s.application contents)
    let run := present done.outcome (s.update path done.app)
    { run with outputs := connecting :: done.log.map .log ++ run.outputs }

def runImport (s : Surroundings) (path : FilePath) (source : String) (skipFile : Option String) : Run :=
  match s.resolve source, s.files.loadSkipList s.directory (skipFile.map FilePath.ofString) with
  | .ok root, .ok skip =>
    withCatalog s path (fun app => app.importTree root skip) fun outcome s =>
      match outcome with
      | .ok _ => ⟨.done, [], s⟩
      | .error _ => .fatal s
  | _, _ => .fatal s

def writeResults (s : Surroundings) (path : FilePath) (results : List SearchResult) : Run :=
  let report := "Writing " ++ results.length.repr ++ " results to " ++ path.written
  let outputs := [Output.log (LogEntry.info report)]
  match s.writeText path (Report.csv results) with
  | .ok s => ⟨.done, outputs, s⟩
  | .error _ => ⟨.fatal, outputs, s⟩

def runSearch (s : Surroundings) (path : FilePath) (query : String) (field : Option SortField)
    (order : Option SortOrder) (csvFile : Option String) : Run :=
  withCatalog s path (fun app => app.search query field order) fun outcome s =>
    match outcome, csvFile with
    | .ok results, none => ⟨.done, (Report.tableLines results).map .line, s⟩
    | .ok results, some file => writeResults s (FilePath.ofString file) results
    | .error (.query error), _ => ⟨.invalidQuery error, [], s⟩
    | .error (.source _), _ => .fatal s

def runStatistics (s : Surroundings) (path : FilePath) (statistic : Statistic) : Run :=
  withCatalog s path (fun app => app.statistics statistic) fun outcome s =>
    match outcome with
    | .ok counts =>
      let lines := Report.countLines (counts.map fun c => (c.label, (c.count : Int)))
      ⟨.done, lines.map .line, s⟩
    | .error _ => .fatal s

def runShow (s : Surroundings) (path : FilePath) (key : String) : Run :=
  withCatalog s path (fun app => app.getAsset key) fun outcome s =>
    match outcome with
    | .ok (some asset) => ⟨.done, (Report.assetLines asset).map .line, s⟩
    | .ok none => ⟨.notFound, [.line ("No asset with id=" ++ key)], s⟩
    | .error _ => .fatal s

def runInvocation (s : Surroundings) (invocation : Invocation) : Run :=
  match s.resolve invocation.catalogFile with
  | .error _ => .fatal s
  | .ok path =>
    match invocation.task with
    | .importTree source skipFile => runImport s path source skipFile
    | .search query field order csvFile => runSearch s path query field order csvFile
    | .statistics statistic => runStatistics s path statistic
    | .showAsset key => runShow s path key

structure Outcome where
  status : Nat
  printed : String
  surroundings : Surroundings

def writeLog (logFile : Option String) (outputs : List Output) (s : Surroundings) : Surroundings :=
  match logFile with
  | none => s
  | some file =>
    let text := String.join (outputs.map Output.logged)
    match s.appendText (FilePath.ofString file) text with
    | .ok s => s
    | .error _ => s

/-- Runs the program with arguments. A log file that cannot be opened ends it before it does anything. -/
def runProgram (args : List String) (s : Surroundings) : Outcome :=
  match readInvocation args with
  | .error .helpShown => ⟨0, "", s⟩
  | .error .usageError => ⟨2, "", s⟩
  | .ok invocation =>
    match (invocation.logFile.map fun file => s.appendText (FilePath.ofString file) "").getD (.ok s) with
    | .error _ => ⟨1, "", s⟩
    | .ok s =>
      let run := runInvocation s invocation
      let outputs := run.outputs ++ run.ending.outputs
      ⟨run.ending.status, String.join (outputs.map Output.written),
        writeLog invocation.logFile outputs run.surroundings⟩

end MediaCatalog.CommandLine
