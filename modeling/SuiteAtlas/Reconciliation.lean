import SuiteAtlas.Report.Extract
import SuiteAtlas.Run
import SuiteAtlas.Session

/-!
Applying a report to the hierarchy.

Every result of a report is matched with the heading of its suite and name. A match replaces the
assertions of the heading by the reported ones, keeps the headings below it, and records what
happened to each of them; a result without a match gives one diagnostic. An output without a usable
report changes nothing.
-/

namespace SuiteAtlas

structure Summary where
  passed : Nat := 0
  failed : Nat := 0
  failedAssertions : Nat := 0
  diagnostics : List String := []
  payloadError : Option String := none
  deriving DecidableEq, Repr

/-- Whether the report was usable and no test failed. -/
def Summary.ok (summary : Summary) : Bool :=
  summary.payloadError.isNone && summary.failed == 0

namespace Reconciliation

def labelLimit : Nat := 80

/-- A label that is cut to the limit ends with three dots. -/
def truncate (text : String) : String :=
  if text.length > labelLimit then
    String.ofList (text.toList.take (labelLimit - 3)) ++ "..."
  else text

/-- The texts of source files by path, as they were when first asked for. -/
abbrev Sources := List (Path × Option (List Char))

/-- The text of a file as first read, and the texts known after that. -/
def sourceOf (files : Files) (sources : Sources) (path : Option Path) :
    Option (List Char) × Sources :=
  match path with
  | none => (none, sources)
  | some path =>
    match sources.lookup path with
    | some text => (text, sources)
    | none =>
      let text := files.text? path
      (text, sources ++ [(path, text)])

/-- The range of a reported assertion: the line that it names, or else that of the assertion which
was at its place before. -/
def rangeOf (source : Option (List Char)) (previous : Option Node) (a : ReportedAssertion) :
    Option Source.Range :=
  match a.line, a.functionName with
  | some line, some name =>
    if name == "" then previous.bind Node.range
    else
      (source.bind fun text => Source.physicalLine? text name.toList line).map fun line =>
        Source.Range.atLine line
  | _, _ => previous.bind Node.range

def operatorOf (previous : Option Node) : String :=
  match previous.bind Node.data with
  | some (.assertion data) => data.operator
  | _ => ""

/-- The node of the reported assertion at a place, below a heading. -/
def resultNode (heading : Node) (stamp : Int) (source : Option (List Char)) (index : Nat)
    (previous : Option Node) (a : ReportedAssertion) : Node :=
  { id := s!"{heading.id}/result/{index}"
    label := if a.message == "" then s!"assertion {index + 1}" else truncate a.message
    file := heading.file
    parentId := some heading.id
    range := rangeOf source previous a
    tags := heading.tags
    data := some (.assertion
      { file := heading.fileText
        actual := a.actual.toLine
        operator := operatorOf previous
        expected := a.expected.toLine
        should := a.message
        stamp := stamp
        origin := .result
        fullMessage := a.message }) }

/-- The nodes of reported assertions from a place on; `previous` are the nodes that were there. -/
def resultNodes (heading : Node) (stamp : Int) (source : Option (List Char)) (index : Nat)
    (previous : List Node) : List ReportedAssertion → List Node
  | [] => []
  | a :: rest =>
    resultNode heading stamp source index previous.head? a ::
      resultNodes heading stamp source (index + 1) previous.tail rest

def assertionEvents (run : Run) (id : String) (a : ReportedAssertion) : Run :=
  let run := run.started id
  let duration := some (Duration.ofReport a.duration)
  if a.passed then run.passed id duration else run.failed id a.failureText duration

/-- The events of a result: those of its assertions in order, then the verdict on the heading. -/
def resultEvents (run : Run) (report : Report) (headingId : String) (ids : List String)
    (result : ReportedTest) : Run :=
  let run := (ids.zip result.assertions).foldl (fun run (id, a) => assertionEvents run id a) run
  let duration := some (Duration.ofReport result.duration)
  if result.passed then run.passed headingId duration
  else
    let reason := report.reasonFor result.suite result.name
    run.failed headingId (result.failureText reason) duration

/-- The assertions of a heading, and its other children. -/
def splitChildren (heading : Tree) : List Tree × List Tree :=
  heading.children.partition Tree.isAssertion

/-- Gives a heading the reported assertions, before its other children. -/
def replaceAssertions (h : Hierarchy) (heading : Tree) (nodes : List Node) : Hierarchy :=
  let (keys, h) := h.createAll nodes
  h.setChildren heading.key (keys ++ (splitChildren heading).2.map Tree.key)

/-- What is carried from one result of a report to the next. -/
structure State where
  session : Session
  run : Run
  summary : Summary
  sources : Sources

def applyResult (files : Files) (report : Report) (state : State) (heading : Tree)
    (result : ReportedTest) : State :=
  let (stamp, session) := state.session.nextStamp
  let (source, sources) := sourceOf files state.sources heading.content.file
  let previous := (splitChildren heading).1.map Tree.content
  let nodes := resultNodes heading.content stamp source 0 previous result.assertions
  let hierarchy := replaceAssertions session.hierarchy heading nodes
  let run := resultEvents state.run report heading.content.id (nodes.map Node.id) result
  let summary :=
    if result.passed then { state.summary with passed := state.summary.passed + 1 }
    else
      { state.summary with
        failed := state.summary.failed + 1
        failedAssertions := state.summary.failedAssertions + result.failedAssertions }
  { session := { session with hierarchy }, run, summary, sources }

/-- Records that a result has no heading. -/
def missResult (state : State) (result : ReportedTest) : State :=
  let diagnostic := s!"No test found for {result.suite}.{result.name}"
  { state with
    run := state.run.print (diagnostic ++ "\n")
    summary := { state.summary with diagnostics := state.summary.diagnostics ++ [diagnostic] } }

/-- Takes the next result of a report. -/
def step (files : Files) (report : Report) (state : State) (result : ReportedTest) : State :=
  match state.session.headingNamed? result.suite result.name with
  | some heading => applyResult files report state heading result
  | none => missResult state result

/-- Applies a report that was found in an output and is written as `echo`. -/
def applyReport (files : Files) (session : Session) (run : Run) (echo : String)
    (report : Report) : State :=
  report.testResults.foldl (step files report)
    { session, run := run.print echo, summary := {}, sources := [] }

/-- The summary of an output without a usable report. -/
def unusable (run : Run) (reason : String) : Summary × Run :=
  ({ payloadError := some reason }, run.print s!"No valid result payload: {reason}\n")

end Reconciliation

/-- The outcome of a reconciliation: its summary, and the session and the record after it. -/
structure Reconciled where
  summary : Summary
  session : Session
  run : Run

/-- Applies the report in an output to a session. A number with too many digits and values that are
nested too deep are errors; the session and the record are then as before. -/
def Session.reconcile (session : Session) (nesting : Nat) (files : Files) (output : List Char)
    (run : Run) : Except Report.Failure Reconciled :=
  match Report.load nesting output with
  | .ok (value, report) =>
    (Report.echo? nesting value).map fun echo =>
      let state := Reconciliation.applyReport files session run echo report
      ⟨state.summary, state.session, state.run⟩
  | .error (.unusable error) =>
    let (summary, run) := Reconciliation.unusable run error.message
    .ok ⟨summary, session, run⟩
  | .error failure => .error failure

end SuiteAtlas
