import MediaCatalog.Application
import MediaCatalog.CommandLine.Arguments

/-!
What the arguments of the program ask for.
-/

namespace MediaCatalog.CommandLine

inductive Task where
  | importTree (source : String) (skipFile : Option String)
  | search (query : String) (field : Option SortField) (order : Option SortOrder)
    (csvFile : Option String)
  | statistics (statistic : Statistic)
  | showAsset (key : String)

structure Invocation where
  catalogFile : String
  logFile : Option String
  task : Task

def defaultCatalogFile : String :=
  "asset_catalog.db"

def helpOption : OptionSpec :=
  ⟨["-h", "--help"], .help⟩

def programUsage : Usage where
  options := [helpOption, ⟨["--db"], .value []⟩, ⟨["-v", "--verbose"], .flag⟩, ⟨["--log-file"], .value []⟩]
  operandUse := .command
  choices := ["import", "search", "stats", "show"]

def importUsage : Usage where
  options := [helpOption, ⟨["--skip-dirs-file"], .value []⟩]
  operandUse := .single
  choices := []

def searchUsage : Usage where
  options := [helpOption, ⟨["--sort"], .value (SortField.all.map SortField.name)⟩,
    ⟨["--order"], .value (SortOrder.all.map SortOrder.name)⟩, ⟨["--csv"], .value []⟩,
    ⟨["--progress"], .flag⟩]
  operandUse := .single
  choices := []

def statisticsUsage : Usage where
  options := [helpOption]
  operandUse := .single
  choices := Statistic.all.map Statistic.name

def showUsage : Usage where
  options := [helpOption]
  operandUse := .single
  choices := []

namespace Findings

def option? (f : Findings) (key : String) : Option String :=
  f.options.reverse.lookup key

end Findings

def gatherCommand (usage : Usage) (args : List String) : Except EarlyExit (String × Findings) := do
  let f ← gather usage args
  match f.operands with
  | some [operand] => .ok (operand, f)
  | _ => .error .usageError

/-- The task of a command with its arguments, and whether some of these are of no use. -/
def readTask (command : String) (args : List String) : Except EarlyExit (Task × Bool) := do
  match command with
  | "import" =>
    let (source, f) ← gatherCommand importUsage args
    return (.importTree source (f.option? "--skip-dirs-file"), f.leftOver)
  | "search" =>
    let (query, f) ← gatherCommand searchUsage args
    let field := (f.option? "--sort").bind fun name => (SortField.ofName name).toOption
    let order := (f.option? "--order").bind fun name => (SortOrder.ofName name).toOption
    return (.search query field order (f.option? "--csv"), f.leftOver)
  | "stats" =>
    let (name, f) ← gatherCommand statisticsUsage args
    match Statistic.ofName? name with
    | some statistic => return (.statistics statistic, f.leftOver)
    | none => .error .usageError
  | "show" =>
    let (key, f) ← gatherCommand showUsage args
    return (.showAsset key, f.leftOver)
  | _ => .error .usageError

def readInvocation (args : List String) : Except EarlyExit Invocation := do
  let f ← gather programUsage args
  match f.operands with
  | some (command :: args) =>
    let (task, leftOver) ← readTask command args
    if f.leftOver || leftOver then .error .usageError
    else return {
      catalogFile := (f.option? "--db").getD defaultCatalogFile
      logFile := f.option? "--log-file"
      task }
  | _ => .error .usageError

end MediaCatalog.CommandLine
