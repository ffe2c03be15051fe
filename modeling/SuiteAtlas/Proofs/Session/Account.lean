import Mathlib.Algebra.GroupWithZero.Nat
import SuiteAtlas.Proofs.Run
import SuiteAtlas.Proofs.Session.Index

namespace SuiteAtlas

open Address

def ReportedAssertion.verdict (a : ReportedAssertion) (id : String) : RunEvent :=
  let duration := some (Duration.ofReport a.duration)
  if a.passed then { status := .passed, nodeId := id, duration }
  else { status := .failed, nodeId := id, duration, message := some a.failureText }

def ReportedAssertion.events (a : ReportedAssertion) (id : String) : List RunEvent :=
  [{ status := .started, nodeId := id }, a.verdict id]

namespace ReportedTest

def verdict (result : ReportedTest) (report : Report) (id : String) : RunEvent :=
  let duration := some (Duration.ofReport result.duration)
  if result.passed then { status := .passed, nodeId := id, duration }
  else
    { status := .failed, nodeId := id, duration
      message := some (result.failureText (report.reasonFor result.suite result.name)) }

def events (result : ReportedTest) (report : Report) (id : String) : List RunEvent :=
  (result.assertions.zipIdx.flatMap fun p => p.1.events (below id (resultText p.2))) ++
    [result.verdict report id]

end ReportedTest

def Status.ofPassed (passed : Bool) : Status :=
  if passed then .passed else .failed

theorem ReportedAssertion.nodeId_of_mem_events {a : ReportedAssertion} {id : String} {e : RunEvent}
    (he : e ∈ a.events id) : e.nodeId = id := by
  rw [ReportedAssertion.events, ReportedAssertion.verdict, List.mem_cons, List.mem_singleton] at he
  rcases he with rfl | rfl
  · rfl
  · split <;> rfl

theorem ReportedTest.nodeId_verdict (result : ReportedTest) (report : Report) (id : String) :
    (result.verdict report id).nodeId = id := by
  rw [ReportedTest.verdict]
  split <;> rfl

theorem ReportedTest.status_verdict (result : ReportedTest) (report : Report) (id : String) :
    (result.verdict report id).status = .ofPassed result.passed := by
  rw [ReportedTest.verdict]
  cases result.passed <;> rfl

theorem ReportedAssertion.status_verdict (a : ReportedAssertion) (id : String) :
    (a.verdict id).status = .ofPassed a.passed := by
  rw [ReportedAssertion.verdict]
  cases a.passed <;> rfl

namespace Session

def knows (s : Session) (result : ReportedTest) : Bool :=
  (s.headingNamed? result.suite result.name).isSome

def eventsOf (s : Session) (report : Report) (result : ReportedTest) : List RunEvent :=
  ((s.headingNamed? result.suite result.name).map fun heading =>
    result.events report heading.content.id).getD []

def missed (s : Session) (results : List ReportedTest) : List String :=
  (results.filter fun result => !s.knows result).map fun result =>
    s!"No test found for {result.suite}.{result.name}"

def tally (s : Session) (results : List ReportedTest) : Summary :=
  { passed := (results.filter s.knows).countP ReportedTest.passed
    failed := (results.filter s.knows).countP fun result => !result.passed
    failedAssertions := (((results.filter s.knows).filter fun result => !result.passed).map
      ReportedTest.failedAssertions).sum
    diagnostics := s.missed results }

variable {s s' : Session} {result : ReportedTest} {results : List ReportedTest} {report : Report}

theorem knows_eq (s : Session) (result : ReportedTest) :
    s.knows result = (s.hierarchy.named? result.suite result.name).isSome := by
  rw [knows, ← map_face_headingNamed?, Option.isSome_map]

theorem eventsOf_eq (s : Session) (report : Report) (result : ReportedTest) :
    s.eventsOf report result = ((s.hierarchy.named? result.suite result.name).map fun heading =>
      result.events report heading.2.id).getD [] := by
  rw [eventsOf, ← map_face_headingNamed?, Option.map_map]
  rfl

theorem tally_total (s : Session) (results : List ReportedTest) :
    (s.tally results).passed + (s.tally results).failed + (s.tally results).diagnostics.length =
      results.length := by
  have hverdicts :=
    List.length_eq_countP_add_countP ReportedTest.passed (l := results.filter s.knows)
  have hknown := List.length_eq_countP_add_countP s.knows (l := results)
  rw [List.countP_eq_length_filter, hverdicts] at hknown
  simpa [tally, missed, ← List.countP_eq_length_filter] using hknown.symm

theorem tally_append (s : Session) (results others : List ReportedTest) :
    s.tally (results ++ others) =
      { passed := (s.tally results).passed + (s.tally others).passed
        failed := (s.tally results).failed + (s.tally others).failed
        failedAssertions := (s.tally results).failedAssertions + (s.tally others).failedAssertions
        diagnostics := (s.tally results).diagnostics ++ (s.tally others).diagnostics } := by
  simp [tally, missed]

end Session

namespace Reconciliation

variable {s : Session} {state : State} {result : ReportedTest} {results : List ReportedTest}
  {report : Report} {files : Files} {run : Run} {heading : Tree}

theorem assertionEvents_log (run : Run) (id : String) (a : ReportedAssertion) :
    (assertionEvents run id a).log = run.log ++ (a.events id).map RunEntry.event := by
  rw [assertionEvents, ReportedAssertion.events, ReportedAssertion.verdict]
  split <;> simp [Run.started, Run.passed, Run.failed, Run.add]

theorem foldl_assertionEvents_log (run : Run) (reported : List (String × ReportedAssertion)) :
    (reported.foldl (fun run (id, a) => assertionEvents run id a) run).log =
      run.log ++ (reported.flatMap fun (id, a) => a.events id).map RunEntry.event := by
  induction reported generalizing run with
  | nil => exact (List.append_nil _).symm
  | cons first rest ih =>
    rw [List.foldl_cons, ih, assertionEvents_log, List.flatMap_cons, List.map_append,
      List.append_assoc]

theorem zip_map_range' (f : Nat → String) (start : Nat) (as : List ReportedAssertion) :
    ((List.range' start as.length).map f).zip as =
      (as.zipIdx start).map fun (a, i) => (f i, a) := by
  induction as generalizing start with
  | nil => rfl
  | cons a rest ih =>
    rw [List.length_cons, List.range'_succ, List.map_cons, List.zip_cons_cons, ih,
      List.zipIdx_cons, List.map_cons]

theorem applyResult_log (files : Files) (report : Report) (state : State) (heading : Tree)
    (result : ReportedTest) :
    (applyResult files report state heading result).run.log =
      state.run.log ++ (result.events report heading.content.id).map RunEntry.event := by
  have hlog := foldl_assertionEvents_log state.run
    (((List.range' 0 result.assertions.length).map fun i =>
      below heading.content.id (resultText i)).zip result.assertions)
  rw [zip_map_range', List.flatMap_map] at hlog
  simp only [applyResult, resultEvents, map_id_resultNodes, ReportedTest.events,
    ReportedTest.verdict]
  rw [zip_map_range']
  split <;> simp [Run.passed, Run.failed, Run.add, hlog]

theorem applyResult_run (files : Files) (report : Report) (state : State) (heading : Tree)
    (result : ReportedTest) :
    (applyResult files report state heading result).run.events =
        state.run.events ++ result.events report heading.content.id ∧
      (applyResult files report state heading result).run.output = state.run.output :=
  Run.views_of_log (applyResult_log files report state heading result)

theorem applyResult_summary (files : Files) (report : Report) (state : State) (heading : Tree)
    (result : ReportedTest) :
    (applyResult files report state heading result).summary =
      if result.passed then { state.summary with passed := state.summary.passed + 1 }
      else
        { state.summary with
          failed := state.summary.failed + 1
          failedAssertions := state.summary.failedAssertions + result.failedAssertions } :=
  rfl

/-- What the results of a report that were taken so far have led to. -/
structure Accounts (s : Session) (report : Report) (run : Run) (results : List ReportedTest)
    (state : State) : Prop where
  holdsFiles : state.session.HoldsFiles
  index : state.session.hierarchy.index = s.hierarchy.index
  summary : state.summary = s.tally results
  events : state.run.events = run.events ++ results.flatMap (s.eventsOf report)
  output : state.run.output = run.output ++ (s.missed results).map (· ++ "\n")

theorem Accounts.named? (h : Accounts s report run results state) (suite name : String) :
    (state.session.headingNamed? suite name).map Tree.face = s.hierarchy.named? suite name := by
  rw [Session.map_face_headingNamed?, Hierarchy.named?_of_index_eq h.index]

theorem Accounts.step (h : Accounts s report run results state) (files : Files)
    (result : ReportedTest) :
    Accounts s report run (results ++ [result]) (step files report state result) := by
  have hnamed := h.named? result.suite result.name
  have hholds := h.holdsFiles.step files report result
  have hindex := (step_index h.holdsFiles files report result).trans h.index
  rw [Reconciliation.step] at hholds hindex ⊢
  cases hheading : state.session.headingNamed? result.suite result.name with
  | none =>
    -- the session has other assertions by now, but the headings are still those of `s`
    rw [hheading, Option.map_none] at hnamed
    rw [hheading] at hholds hindex
    have hknows : s.knows result = false := by rw [Session.knows_eq, ← hnamed]; rfl
    have hevents : s.eventsOf report result = [] := by rw [Session.eventsOf_eq, ← hnamed]; rfl
    refine ⟨hholds, hindex, ?_, ?_, ?_⟩
    · rw [missResult, h.summary, Session.tally_append]
      simp [Session.tally, Session.missed, hknows]
    · simp [missResult, h.events, hevents]
    · simp [missResult, h.output, Session.missed, hknows]
  | some heading =>
    rw [hheading, Option.map_some] at hnamed
    rw [hheading] at hholds hindex
    obtain ⟨hevents, houtput⟩ := applyResult_run files report state heading result
    have hknows : s.knows result = true := by rw [Session.knows_eq, ← hnamed]; rfl
    have hof : s.eventsOf report result = result.events report heading.content.id := by
      rw [Session.eventsOf_eq, ← hnamed]
      rfl
    refine ⟨hholds, hindex, ?_, ?_, ?_⟩
    · rw [applyResult_summary, h.summary, Session.tally_append]
      cases hpassed : result.passed <;> simp [Session.tally, Session.missed, hknows, hpassed]
    · simp [hevents, h.events, hof]
    · simp [houtput, h.output, Session.missed, hknows]

theorem accounts_foldl (h : s.HoldsFiles) (files : Files) (report : Report) (run : Run)
    (results : List ReportedTest) :
    Accounts s report run results
      (results.foldl (step files report) { session := s, run, summary := {}, sources := [] }) := by
  induction results using List.reverseRecOn with
  | nil => exact ⟨h, rfl, rfl, (List.append_nil _).symm, (List.append_nil _).symm⟩
  | append_singleton results result ih =>
    rw [List.foldl_append]
    exact ih.step files result

end Reconciliation

end SuiteAtlas
