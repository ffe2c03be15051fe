import SuiteAtlas.Main
import SuiteAtlas.Proofs.Session.Reachable
import SuiteAtlas.Proofs.Source.Logical
import SuiteAtlas.Proofs.Source.Rendered
import SuiteAtlas.Proofs.Files.Names
import SuiteAtlas.Proofs.Outline.Unstamped
import SuiteAtlas.Proofs.Session.Index
import SuiteAtlas.Proofs.Session.History
import SuiteAtlas.Proofs.Command.Watching
import SuiteAtlas.Proofs.Run
import SuiteAtlas.Proofs.Session.Account
import SuiteAtlas.Proofs.Session.Agreement
import SuiteAtlas.Proofs.Command.Verdict
import SuiteAtlas.Proofs.Session.Fallback
import SuiteAtlas.Proofs.Json.Reader
import SuiteAtlas.Proofs.Report.Extract
import SuiteAtlas.Proofs.Session.Containment
import SuiteAtlas.Proofs.Hierarchy.Order
import SuiteAtlas.Proofs.Session.Change
import SuiteAtlas.Proofs.Firsts
import SuiteAtlas.Proofs.Runner.Selection
import SuiteAtlas.Proofs.Session.Skeleton
import SuiteAtlas.Proofs.Session.Frame
import SuiteAtlas.Proofs.Runner.Lifecycle
import SuiteAtlas.Proofs.Source.Folding
import SuiteAtlas.Proofs.Outline.Repeats
import SuiteAtlas.Proofs.Session.Repeats
import SuiteAtlas.Proofs.Runner.Enclosing
import SuiteAtlas.Proofs.Command.Launching
import SuiteAtlas.Proofs.Runner.Interleaved
import SuiteAtlas.Proofs.Source.LineEnds
import SuiteAtlas.Proofs.Source.Breaking
import SuiteAtlas.Proofs.Session.Repetition
import SuiteAtlas.Proofs.Session.Permutation
import SuiteAtlas.Proofs.Session.Passes
import SuiteAtlas.Proofs.Session.Saved
import SuiteAtlas.Proofs.Hierarchy.Walk
import SuiteAtlas.Proofs.Session.Tags
import SuiteAtlas.Proofs.Json.RoundTrip
import SuiteAtlas.Proofs.Report.Echo
