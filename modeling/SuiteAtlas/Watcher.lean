import SuiteAtlas.TestFiles

/-!
Watching for changes of source files.

A watcher is idle, watching, or done with the stream of changes that it was started on. Each batch
of changes that names source files is handed on as one set of paths; what the receiver makes of it
does not stop the watcher.
-/

namespace SuiteAtlas

/-- The changes that arrive together: a kind and a path each. -/
abbrev Batch := List (Int × String)

/-- The source files that a batch names, each once, in ascending order. -/
def changedSources (batch : Batch) : List Path :=
  let paths := batch.map fun change => Path.ofString change.2
  Path.sort (paths.filter isClassFile).eraseDups

def notifications (batches : List Batch) : List (List Path) :=
  (batches.map changedSources).filter fun paths => !paths.isEmpty

inductive WatchState
  | idle
  | watching
  | done
  deriving DecidableEq, Repr

/-- A watcher of a stream, with the sets of paths that it has handed on. -/
structure Watcher where
  stream : List Batch
  state : WatchState := .idle
  handedOn : List (List Path) := []
  deriving Repr

namespace Watcher

def isStarted (w : Watcher) : Bool :=
  w.state != .idle

/-- Starts on the stream from its first batch; a watcher that was started stays as it is. -/
def start (w : Watcher) : Watcher :=
  match w.state with
  | .idle => { w with state := .watching }
  | _ => w

def wait (w : Watcher) : Watcher :=
  match w.state with
  | .watching => { w with state := .done, handedOn := w.handedOn ++ notifications w.stream }
  | _ => w

def stop (w : Watcher) : Watcher :=
  { w with state := .idle }

end Watcher

end SuiteAtlas
