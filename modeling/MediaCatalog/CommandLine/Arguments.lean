import MediaCatalog.Text.Digit

/-!
Reading command line arguments. An argument that begins with a hyphen names an option, unless it is a lone
hyphen, looks like a negative number, holds a space or comes after `--`. Long options can be shortened as long as
only one is meant, `--name=value` gives a value, and options of one letter can share a hyphen.
-/

namespace MediaCatalog.CommandLine

inductive OptionKind where
  | help
  | flag
  /-- Takes a value, which must be one of the choices, if there are any. -/
  | value (choices : List String)
deriving DecidableEq

structure OptionSpec where
  names : List String
  kind : OptionKind
deriving DecidableEq

namespace OptionSpec

def key (spec : OptionSpec) : String :=
  spec.names.getLast?.getD ""

end OptionSpec

/-- How the arguments that name no option are used. -/
inductive OperandUse where
  | single
  | command
deriving DecidableEq

/-- What a command understands. The first operand must be one of the choices, if there are any. -/
structure Usage where
  options : List OptionSpec
  operandUse : OperandUse
  choices : List String

inductive EarlyExit where
  | helpShown
  | usageError
deriving DecidableEq

inductive OptionUse where
  | unknown
  | known (spec : OptionSpec) (name : String) (value : Option String)
deriving DecidableEq

inductive ArgumentKind where
  | operand
  | separator
  | option (use : OptionUse)
deriving DecidableEq

structure Argument where
  text : String
  kind : ArgumentKind
deriving DecidableEq

/-- What was found in the arguments of a command: options with their values, the operands in use, and whether
there were arguments for which there is no use. -/
structure Findings where
  options : List (String × String) := []
  operands : Option (List String) := none
  leftOver : Bool := false

namespace Usage

def names (usage : Usage) : List (String × OptionSpec) :=
  usage.options.flatMap fun spec => spec.names.map fun name => (name, spec)

def named? (usage : Usage) (name : String) : Option OptionSpec :=
  usage.names.lookup name

end Usage

def splitEquals (text : String) : String × Option String :=
  let chars := text.toList
  match chars.dropWhile (· != '=') with
  | [] => (text, none)
  | _ :: rest => (String.ofList (chars.takeWhile (· != '=')), some (String.ofList rest))

/-- Whether an argument is a hyphen and a number, perhaps with a point in it or before it. A line feed may
follow. -/
def looksNegative (text : String) : Bool :=
  match text.toList with
  | '-' :: number =>
    let digits := number.takeWhile Text.isDecimalDigit
    match number.dropWhile Text.isDecimalDigit with
    | [] => !digits.isEmpty
    | ['\n'] => !digits.isEmpty
    | '.' :: fraction =>
      let rest := fraction.dropWhile Text.isDecimalDigit
      rest.length < fraction.length && (rest.isEmpty || rest = ['\n'])
    | _ => false
  | _ => false

def abbreviated (usage : Usage) (text : String) : List OptionUse :=
  match text.toList with
  | '-' :: '-' :: _ =>
    let (start, value) := splitEquals text
    usage.names.filterMap fun (name, spec) =>
      if start.toList.isPrefixOf name.toList then some (.known spec name value) else none
  | '-' :: letter :: rest =>
    usage.names.filterMap fun (name, spec) =>
      if name.toList = ['-', letter] then some (.known spec name (some (String.ofList rest)))
      else if text.toList.isPrefixOf name.toList then some (.known spec name none)
      else none
  | _ => []

def assigned? (usage : Usage) (text : String) : Option OptionUse :=
  match splitEquals text with
  | (name, some value) => (usage.named? name).map fun spec => .known spec name (some value)
  | (_, none) => none

def argumentKind (usage : Usage) (text : String) : Except EarlyExit ArgumentKind :=
  if text = "" ∨ text.toList.head? ≠ some '-' then .ok .operand
  else
    match usage.named? text with
    | some spec => .ok (.option (.known spec text none))
    | none =>
      if text = "-" then .ok .operand
      else
        match assigned? usage text, abbreviated usage text with
        | some use, _ => .ok (.option use)
        | none, [use] => .ok (.option use)
        | none, _ :: _ :: _ => .error .usageError
        | none, [] =>
          if looksNegative text || text.toList.contains ' ' then .ok .operand
          else .ok (.option .unknown)

/-- Arguments with their kinds. After the first `--` all are operands. -/
def classify (usage : Usage) : List String → Except EarlyExit (List Argument)
  | [] => .ok []
  | text :: rest =>
    if text = "--" then .ok (⟨text, .separator⟩ :: rest.map fun text => ⟨text, .operand⟩)
    else do
      let kind ← argumentKind usage text
      let rest ← classify usage rest
      return ⟨text, kind⟩ :: rest

namespace Findings

def addOption (f : Findings) (spec : OptionSpec) (value : String) : Except EarlyExit Findings :=
  match spec.kind with
  | .help => .error .helpShown
  | .flag => .ok { f with options := f.options ++ [(spec.key, "")] }
  | .value choices =>
    if choices.isEmpty || choices.contains value then
      .ok { f with options := f.options ++ [(spec.key, value)] }
    else .error .usageError

def letterOption? (usage : Usage) (letter : Char) : Option OptionSpec :=
  (usage.named? (String.ofList ['-', letter])).filter fun spec =>
    match spec.kind with
    | .value _ => false
    | _ => true

/-- Adds an option that has a text of its own: its value, or further letters that share its hyphen. -/
def addAssigned (usage : Usage) (f : Findings) (spec : OptionSpec) (name value : String) :
    Except EarlyExit Findings :=
  match spec.kind with
  | .value _ => f.addOption spec value
  | _ =>
    if name.length = 2 ∧ value ≠ "" then
      match value.toList.mapM (letterOption? usage) with
      | some specs => (spec :: specs).foldlM (fun f spec => f.addOption spec "") f
      | none => .error .usageError
    else .error .usageError

def addOperands (usage : Usage) (f : Findings) (operands : List String) : Except EarlyExit Findings :=
  match operands with
  | first :: _ =>
    if usage.choices.isEmpty || usage.choices.contains first then
      .ok { f with operands := some operands }
    else .error .usageError
  | [] => .ok f

def withLeftOver (f : Findings) : Findings :=
  { f with leftOver := true }

end Findings

namespace Argument

def isOption (arg : Argument) : Bool :=
  match arg.kind with
  | .option _ => true
  | _ => false

end Argument

/-- The operands at the front of arguments, if they can be put to use, and what is left. -/
def takeOperands (use : OperandUse) (args : List Argument) : Option (List String × List Argument) :=
  let isSeparator (arg : Argument) : Bool := arg.kind = .separator
  match args.dropWhile isSeparator with
  | ⟨text, .operand⟩ :: rest =>
    match use with
    | .single => some ([text], rest.dropWhile isSeparator)
    | .command => some (args.map Argument.text, [])
  | _ => none

def gatherOperands (usage : Usage) (f : Findings) (args : List Argument) :
    Except EarlyExit (Findings × List Argument) :=
  match f.operands, takeOperands usage.operandUse args with
  | none, some (operands, rest) => (f.addOperands usage operands).map (·, rest)
  | _, _ => .ok (f, args)

def gatherOption (usage : Usage) (f : Findings) (use : OptionUse) (rest : List Argument) :
    Except EarlyExit (Findings × List Argument) :=
  match use with
  | .unknown => .ok (f.withLeftOver, rest)
  | .known spec name (some value) => (f.addAssigned usage spec name value).map (·, rest)
  | .known spec _ none =>
    match spec.kind, rest with
    | .value _, ⟨value, .operand⟩ :: rest => (f.addOption spec value).map (·, rest)
    | .value _, _ => .error .usageError
    | _, _ => (f.addOption spec "").map (·, rest)

/-- Goes through arguments; `fuel` is their number. Operands are taken as soon as they can be put to use. -/
def gatherFrom (usage : Usage) : (fuel : Nat) → Findings → List Argument → Except EarlyExit Findings
  | 0, f, _ => .ok f
  | fuel + 1, f, args =>
    match args with
    | [] => .ok f
    | ⟨_, .option use⟩ :: rest => do
      let (f, rest) ← gatherOption usage f use rest
      gatherFrom usage fuel f rest
    | _ :: _ => do
      let (f, rest) ← gatherOperands usage f args
      if rest.length < args.length then gatherFrom usage fuel f rest
      else gatherFrom usage fuel f.withLeftOver (args.dropWhile fun arg => !arg.isOption)

def gather (usage : Usage) (args : List String) : Except EarlyExit Findings := do
  let args ← classify usage args
  gatherFrom usage args.length {} args

end MediaCatalog.CommandLine
