import SuiteAtlas.Hierarchy.Basic
import SuiteAtlas.Keyed
import SuiteAtlas.Number.Shortest

/-!
The record of a test run: what happened to which node, what was printed, and whether it ended.

The record is a log of entries. What is asked of it are views of the log: the events, the texts that
were printed, and the last event of every node.
-/

namespace SuiteAtlas

open Number (Binary64)

inductive Status
  | started
  | passed
  | failed
  deriving DecidableEq, Repr

def Status.toString : Status → String
  | .started => "started"
  | .passed => "passed"
  | .failed => "failed"

/-- A duration in milliseconds, given as a whole number or as a measured one. -/
inductive Duration
  | whole (n : Int)
  | measured (x : Binary64)
  deriving DecidableEq, Repr

namespace Duration

/-- The duration that a report gives; without one, and for zero, it is the whole number zero. -/
def ofReport (duration : Option Binary64) : Duration :=
  match duration with
  | some x => if x.isZero then .whole 0 else .measured x
  | none => .whole 0

def toText : Duration → String
  | .whole n => ToString.toString n
  | .measured x => String.ofList x.toText

def toTableText : Duration → String
  | .whole n => String.ofList (Binary64.ofInt n).toTableText
  | .measured x => String.ofList x.toTableText

end Duration

structure RunEvent where
  status : Status
  nodeId : String
  duration : Option Duration := none
  message : Option String := none
  deriving DecidableEq, Repr

/-- One entry in the record of a run: something that happened to a node, a text that was printed,
or the end. -/
inductive RunEntry
  | event (e : RunEvent)
  | text (t : String)
  | finish
  deriving DecidableEq, Repr

namespace RunEntry

def event? : RunEntry → Option RunEvent
  | .event e => some e
  | _ => none

def text? : RunEntry → Option String
  | .text t => some t
  | _ => none

end RunEntry

/-- The record of a run: its entries in order. -/
structure Run where
  log : List RunEntry := []
  deriving DecidableEq, Repr

namespace Run

def add (run : Run) (entry : RunEntry) : Run :=
  ⟨run.log ++ [entry]⟩

def started (run : Run) (nodeId : String) : Run :=
  run.add (.event { status := .started, nodeId })

def passed (run : Run) (nodeId : String) (duration : Option Duration := none) : Run :=
  run.add (.event { status := .passed, nodeId, duration })

def failed (run : Run) (nodeId message : String) (duration : Option Duration := none) : Run :=
  run.add (.event { status := .failed, nodeId, duration, message := some message })

def print (run : Run) (text : String) : Run :=
  run.add (.text text)

def finish (run : Run) : Run :=
  run.add .finish

def events (run : Run) : List RunEvent :=
  run.log.filterMap RunEntry.event?

def output (run : Run) : List String :=
  run.log.filterMap RunEntry.text?

def ended (run : Run) : Bool :=
  run.log.contains .finish

def text (run : Run) : String :=
  String.join run.output

def status? (run : Run) (nodeId : String) : Option Status :=
  (run.events.reverse.find? fun event => event.nodeId == nodeId).map RunEvent.status

/-- The last event of every node, in the order of the first events. -/
def lastEvents (run : Run) : List (String × RunEvent) :=
  Keyed.ofList (run.events.map fun event => (event.nodeId, event))

@[simp] theorem events_add (run : Run) (entry : RunEntry) :
    (run.add entry).events = run.events ++ entry.event?.toList := by
  cases entry <;> simp [events, add, RunEntry.event?]

@[simp] theorem output_add (run : Run) (entry : RunEntry) :
    (run.add entry).output = run.output ++ entry.text?.toList := by
  cases entry <;> simp [output, add, RunEntry.text?]

end Run

end SuiteAtlas
