import SuiteAtlas.Console.Branch
import SuiteAtlas.Console.Table
import SuiteAtlas.Report.Extract
import SuiteAtlas.Runner.Output
import SuiteAtlas.TestFiles
import SuiteAtlas.Watcher

namespace SuiteAtlas

/-- What happens to the files of a workspace, and the changes that are noticed of it. -/
structure Arrival where
  written : List (Path × Entry) := []
  deleted : List Path := []
  changes : Batch := []
  deriving Repr

/-- The files as they are after an arrival. -/
def Arrival.applyTo (arrival : Arrival) (files : Files) : Files :=
  let files := arrival.written.foldl (fun files (path, entry) => files.add path entry) files
  arrival.deleted.foldl Files.delete files

/-- What the runner leaves behind when it is started, and what arrives while files are watched. -/
structure Surroundings where
  files : Files
  environment : Environment := []
  execution : Execution := {}
  arrivals : List Arrival := []
  /-- How deep the values in a report may be nested. -/
  nesting : Nat := 950
  deriving Repr

/-- What a command starts: the runner in a folder, or the watch over one. -/
inductive Launched
  | runner (command : List String) (folder : Path)
  | watch (folder : Path)
  deriving DecidableEq, Repr

/-- What a command does not handle. -/
inductive Failure
  | settings (error : Text.Shell.Error)
  | discovery (error : SearchError)
  | file (error : FileError)
  | report (failure : Report.Failure)
  | markup (error : Console.Markup.Error)
  deriving DecidableEq, Repr

def Failure.message : Failure → String
  | .settings error => error.message
  | .discovery error => error.message
  | .file error => error.message
  | .report failure => failure.message
  | .markup error => error.message

/-- How a command stops before its end. -/
inductive Stop
  | exit (code : Nat)
  | failure (cause : Failure)
  deriving DecidableEq, Repr

/-- What a command has done so far. -/
structure Transcript where
  output : String := ""
  launched : List Launched := []
  deriving DecidableEq, Repr

abbrev Action := ExceptT Stop (StateM Transcript)

namespace Action

def exit {α : Type} (code : Nat) : Action α :=
  throw (.exit code)

/-- Goes on with a result, or stops with the failure that an error means. -/
def orFail {ε α : Type} (failure : ε → Failure) (result : Except ε α) : Action α :=
  match result with
  | .ok value => pure value
  | .error error => throw (.failure (failure error))

def write (text : String) : Action Unit :=
  modify fun t => { t with output := t.output ++ text }

def launch (started : Launched) : Action Unit :=
  modify fun t => { t with launched := t.launched ++ [started] }

def printLines (lines : Except Console.Markup.Error (List (List Char))) : Action Unit := do
  let lines ← orFail .markup lines
  write (String.join (lines.map fun line => String.ofList (line ++ ['\n'])))

def markupLines (markup : String) : Except Console.Markup.Error (List (List Char)) :=
  (Console.Markup.shown markup.toList).map Console.shownLines

def print (markup : String) : Action Unit :=
  printLines (markupLines markup)

/-- A text as it is printed when it is no markup. -/
def plainText (text : String) : String :=
  let lines := Console.shownLines (Console.Markup.printed text.toList)
  String.ofList (['\n'].intercalate lines)

def printPlain (text : String) : Action Unit :=
  write (plainText text)

def printTable (table : Console.Table) : Action Unit :=
  printLines table.lines

def printTree (tree : Console.Branch) : Action Unit :=
  printLines tree.lines

end Action

end SuiteAtlas
