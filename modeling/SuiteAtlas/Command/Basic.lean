import SuiteAtlas.Command.Options
import SuiteAtlas.Path
import SuiteAtlas.Text.Numeral

namespace SuiteAtlas

/-- How `run` is narrowed and what it starts: a tag, tests by name, and a command line. -/
structure RunOptions where
  tag : Option String := none
  tests : List String := []
  runner : Option String := none
  deriving DecidableEq, Repr

inductive Command
  | discover (workspace : Path)
  | tags (workspace : Path)
  | run (workspace : Path) (options : RunOptions)
  | watch (workspace : Path)
  | mapLine (file : Path) (function : String) (offset : Int)
  deriving DecidableEq, Repr

namespace Command

def verboseOption : OptionKind := { long := "verbose", short := some 'v', takesValue := false }
def tagOption : OptionKind := { long := "tag" }
def testOption : OptionKind := { long := "test", short := some 't' }
def runnerOption : OptionKind := { long := "runner" }

def pathOf (word : String) : Except UsageError Path :=
  let path := Path.ofString word
  if path.hasNull then .error (.notAPath word) else .ok path

/-- The workspace argument; without one it is the current folder. -/
def workspaceOf (words : List String) : Except UsageError Path :=
  match words with
  | [] => .ok (Path.ofString ".")
  | [word] => pathOf word
  | _ => .error .surplusArgument

def runOptionsOf (given : Given) : RunOptions :=
  { tag := given.value? tagOption
    tests := given.values testOption
    runner := given.value? runnerOption }

def mapLineOf (words : List String) : Except UsageError Command :=
  match words with
  | [file, function, offset] => do
    match Text.integer? offset.toList with
    | some offset => return .mapLine (← pathOf file) function offset
    | none => throw (.notAnInteger offset)
  | _ :: _ :: _ :: _ => .error .surplusArgument
  | _ => .error .missingArgument

def ofName (name : String) (words : List String) : Except UsageError Command := do
  match name with
  | "discover" => return .discover (← workspaceOf (← readWords [] true none words).words)
  | "tags" => return .tags (← workspaceOf (← readWords [] true none words).words)
  | "run" =>
    let given ← readWords [tagOption, testOption, runnerOption] true none words
    return .run (← workspaceOf given.words) (runOptionsOf given)
  | "watch" => return .watch (← workspaceOf (← readWords [] true none words).words)
  | "map-line" => mapLineOf (← readWords [] true none words).words
  | name => .error (.unknownCommand name)

def ofArguments (arguments : List String) : Except UsageError Command := do
  match (← readWords [verboseOption] false none arguments).words with
  | [] => .error .noCommand
  | name :: words => ofName name words

end Command

end SuiteAtlas
