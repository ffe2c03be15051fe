import SuiteAtlas.Reconciliation
import SuiteAtlas.Runner.Output
import SuiteAtlas.Runner.Selection

/-!
One run of the selected tests.

A run has two steps. `prepare` selects the tests, marks them as started and names the command, or
ends the run at once. `conclude` takes what the process left behind and applies its report; the
session may have changed in between. Either way the run is ended last.
-/

namespace SuiteAtlas

structure Launch where
  command : List String
  run : Run

/-- The limit that is named when a line of output was too long. -/
def namedLimit : Nat := 16 * 1024 * 1024

def overflowReason : String :=
  s!"runner output line exceeded {namedLimit} bytes"

namespace Session

/-- Selects the tests and marks them as started. Without tests, or when the run was cancelled,
nothing is to be started and the run is ended. -/
def prepare (s : Session) (request : Request) (cancelled : Bool) (run : Run) : Run ⊕ Launch :=
  let selected := s.select request
  let targets := targetsOf (selected.map Tree.content)
  if targets.isEmpty then .inl (run.print "No tests selected.\n").finish
  else if cancelled then .inl run.finish
  else
    let run := selected.foldl (fun run t => run.started t.content.id) run
    let command := s.settings.command ++ runnerArguments targets request.targets.isSome request.tag
    .inr ⟨command, run.print s!"Spawning: {Text.Shell.join command}\n"⟩

/-- How a run ended: its summary unless nothing ran, and the session and record after it. -/
structure Outcome where
  summary : Option Summary
  session : Session
  run : Run

/-- Takes what the process of a run left behind. A failure of the reconciliation ends the run,
too. -/
def conclude (s : Session) (nesting : Nat) (files : Files) (launch : Launch)
    (execution : Execution) : Except (Report.Failure × Run) Outcome :=
  match execution.startError with
  | some reason =>
    let program := launch.command.headD ""
    let run := launch.run.print s!"Cannot start {program}: {reason}\n"
    .ok ⟨none, s, run.finish⟩
  | none =>
    let (output, run) := KeptOutput.collect s.settings.noise execution launch.run
    if output.overflowed then
      let (summary, run) := Reconciliation.unusable run overflowReason
      .ok ⟨some summary, s, run.finish⟩
    else
      match s.reconcile nesting files output.stdout.toList run with
      | .ok result => .ok ⟨some result.summary, result.session, result.run.finish⟩
      | .error failure => .error (failure, run.finish)

/-- A whole run, with nothing happening between its two steps. -/
def runOnce (s : Session) (nesting : Nat) (files : Files) (request : Request) (cancelled : Bool)
    (execution : Execution) (run : Run) : Except (Report.Failure × Run) Outcome :=
  match s.prepare request cancelled run with
  | .inl run => .ok ⟨none, s, run⟩
  | .inr launch => s.conclude nesting files launch execution

end Session

end SuiteAtlas
