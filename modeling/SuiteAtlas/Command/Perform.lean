import SuiteAtlas.Command.Action
import SuiteAtlas.Command.Basic
import SuiteAtlas.Command.Display
import SuiteAtlas.Runner.Run

/-!
Performing the commands.

`Command.perform` gives the exit code of a command, what it printed, and what it launched. A run
whose report has a failed test exits with 1, like one without a usable report and one that did not
start; a failure that is not handled exits with 1, too.
-/

namespace SuiteAtlas

namespace Action

def openSession (s : Surroundings) (workspace : Path) (runner : Option String := none) :
    Action Session := do
  let settings ← orFail .settings (Settings.ofEnvironment s.environment runner)
  orFail .discovery (Session.discover { workspace, settings } s.files workspace)

def showTests (s : Surroundings) (workspace : Path) : Action Unit := do
  let session ← openSession s workspace
  if session.hierarchy.roots.isEmpty then
    print s!"[yellow]No tests found under {workspace}[/yellow]"
    exit 1
  printTree (Display.testTree workspace.toString session)
  print s!"({session.headings.length} tests in {session.hierarchy.roots.length} files)"

def showTags (s : Surroundings) (workspace : Path) : Action Unit := do
  let session ← openSession s workspace
  printTable (Display.tagTable session.countTags)
  print s!"({session.countTags.length} tags)"

/-- The suite and the function that a name gives; without a dot there is no function. -/
def splitName (name : String) : String × String :=
  let text := name.toList
  (String.ofList (text.takeWhile (· != '.')), String.ofList ((text.dropWhile (· != '.')).drop 1))

/-- The nodes of a name: those of a suite, or one test. -/
def targetsNamed (session : Session) (name : String) : Action (List Key) := do
  let (suite, function) := splitName name
  if function = "" then
    let files := session.hierarchy.rootTrees.filter fun root => root.content.suite == suite
    if files.isEmpty then
      print s!"[red]Unknown suite {name}[/red]"
      exit 1
    return files.map Tree.key
  else
    match session.headingNamed? suite function with
    | some heading => return [heading.key]
    | none =>
      print s!"[red]Unknown test {name}[/red]"
      exit 1

def requestOf (session : Session) (options : RunOptions) : Action Request := do
  if options.tests.isEmpty then return { tag := options.tag }
  else
    let targets ← options.tests.mapM (targetsNamed session)
    return { targets := some targets.flatten, tag := options.tag }

def printOutput (run : Run) : Action Unit :=
  run.output.forM printPlain

/-- The folder in which the runner is started: the workspace as it was named, or the current folder
by its full name. -/
def runFolder (files : Files) (workspace : Path) : Path :=
  if workspace == Path.ofString "." then files.current else workspace

/-- Starts the runner and takes what it leaves behind; without one, ends with exit code 1. -/
def execute (s : Surroundings) (session : Session) (request : Request) :
    Action (Summary × Session × Run) := do
  match session.prepare request false {} with
  | .inl run =>
    printOutput run
    exit 1
  | .inr started =>
    launch (.runner started.command (runFolder s.files session.workspace))
    match session.conclude s.nesting s.files started s.execution with
    | .error (failure, run) =>
      printOutput run
      throw (.failure (.report failure))
    | .ok outcome =>
      printOutput outcome.run
      match outcome.summary with
      | some summary => return (summary, outcome.session, outcome.run)
      | none => exit 1

/-- Tells how many tests failed and passed. -/
def printVerdict (summary : Summary) : Action Unit := do
  if summary.ok then print s!"[green]{summary.passed} passed[/green]"
  else
    if summary.payloadError.isNone then
      print s!"[red]{summary.failed} failed[/red], {summary.passed} passed"
    exit 1

def showRun (s : Surroundings) (workspace : Path) (options : RunOptions) : Action Unit := do
  let session ← openSession s workspace options.runner
  let request ← requestOf session options
  let selected := (session.select request).map Tree.key
  let (summary, session, run) ← execute s session request
  printTable (Display.resultTable run (session.hierarchy.trees selected))
  printVerdict summary

/-- What is told about a file that was read anew. -/
def changeText (session : Session) (path : Path) (key : Option Key) : String :=
  match key with
  | none => s!"[yellow]{path.name}[/yellow]: no tests"
  | some key =>
    let count := ((session.hierarchy.node? key).map fun node => node.children.length).getD 0
    s!"[green]{path.name}[/green]: {count} test(s)"

/-- Reads changed files anew. What goes wrong with one of them skips those after it. -/
def showChanges (files : Files) (session : Session) : List Path → StateM Transcript Session
  | [] => pure session
  | path :: rest => do
    match session.refresh files path with
    | .error _ => return session
    | .ok (key, session) =>
      match ← (print (changeText session path key)).run with
      | .ok () => showChanges files session rest
      | .error _ => return session

/-- Goes through the arrivals one after the other, up to the session after the last one. -/
def showArrivals (files : Files) (session : Session) : List Arrival → StateM Transcript Session
  | [] => pure session
  | arrival :: rest => do
    let files := arrival.applyTo files
    let session ← showChanges files session (changedSources arrival.changes)
    showArrivals files session rest

def watchTests (s : Surroundings) (workspace : Path) : Action Unit := do
  let session ← openSession s workspace
  print s!"Watching {session.hierarchy.roots.length} test file(s), press Ctrl+C to stop"
  let sources := workspace.join (Path.ofString session.settings.sourcesFolder)
  let isFolder ← orFail .file (s.files.isFolder sources)
  launch (.watch (if isFolder then sources else workspace))
  let _ ← showArrivals s.files session s.arrivals

def showLine (s : Surroundings) (file : Path) (function : String) (offset : Int) : Action Unit := do
  match ← orFail .file (Session.physicalLineOf? s.files file function offset) with
  | some line => print (toString (line + 1))
  | none =>
    print s!"[red]Line {offset} of {function} not found in {file}[/red]"
    exit 1

end Action

/-- What a command did: its exit code, what it printed and launched, and the failure that it did
not handle. -/
structure Outcome where
  code : Nat
  output : String
  launched : List Launched
  failure : Option Failure := none
  deriving DecidableEq, Repr

namespace Command

def action (s : Surroundings) : Command → Action Unit
  | .discover workspace => Action.showTests s workspace
  | .tags workspace => Action.showTags s workspace
  | .run workspace options => Action.showRun s workspace options
  | .watch workspace => Action.watchTests s workspace
  | .mapLine file function offset => Action.showLine s file function offset

def perform (s : Surroundings) (command : Command) : Outcome :=
  let (result, t) := ((command.action s).run).run {}
  match result with
  | .ok () => ⟨0, t.output, t.launched, none⟩
  | .error (.exit code) => ⟨code, t.output, t.launched, none⟩
  | .error (.failure cause) => ⟨1, t.output, t.launched, some cause⟩

def performArguments (s : Surroundings) (arguments : List String) : Except UsageError Outcome :=
  (ofArguments arguments).map (perform s)

end Command

end SuiteAtlas
