import SuiteAtlas.Proofs.Runner.Enclosing
import SuiteAtlas.Proofs.Runner.Lifecycle

namespace SuiteAtlas

open Relation (ReflTransGen)

def Request.IsWithin (request : Request) (s : Session) : Prop :=
  ∀ keys, request.targets = some keys →
    ∀ key ∈ keys, ∃ root ∈ s.hierarchy.rootTrees, key ∈ root.keys

theorem Run.Grows.events_eq {run run' : Run} (h : Run.Grows RunEntry.IsText run run') :
    run'.events = run.events := by
  obtain ⟨entries, hlog, htexts⟩ := h
  have hnone : entries.filterMap RunEntry.event? = [] := by
    rw [List.filterMap_eq_nil_iff]
    intro entry hentry
    cases entry with
    | text t => rfl
    | event e => exact (htexts _ hentry).elim
    | finish => rfl
  rw [Run.events, hlog, List.filterMap_append, hnone, List.append_nil, Run.events]

namespace Session

variable {s s' : Session} {request : Request} {ts : List Tree} {t t' root : Tree} {key : Key}
  {run : Run} {launch : Launch} {execution : Execution} {files : Files}

theorem Reachable.of_steps (h : s.Reachable) (hsteps : ReflTransGen Step s s') :
    s'.Reachable := by
  induction hsteps with
  | refl => exact h
  | tail _ hstep ih => exact .step ih hstep

def SharesSuites (s s' : Session) : Prop :=
  ∀ root ∈ s.hierarchy.rootTrees, ∀ root' ∈ s'.hierarchy.rootTrees,
    root.content.suite = root'.content.suite → root.content.id = root'.content.id

/-- A heading gets its suite and its id from its file and its own label. -/
theorem SharesSuites.id_eq (hshare : s.SharesSuites s') (h : s.HoldsFiles) (h' : s'.HoldsFiles)
    (ht : t ∈ s.headings) (ht' : t' ∈ s'.headings) (htarget : t'.target = t.target) :
    t'.content.id = t.content.id := by
  obtain ⟨hsuite, hlabel⟩ := Target.mk.inj htarget
  obtain ⟨root, hroot, hin⟩ := List.mem_flatMap.1 ht
  obtain ⟨root', hroot', hin'⟩ := List.mem_flatMap.1 ht'
  have hof := h.isHeadingOf hroot hin
  have hof' := h'.isHeadingOf hroot' hin'
  have hsame : root.content.suite = root'.content.suite := by
    rw [← hof.suite_eq, ← hof'.suite_eq, hsuite]
  rw [hof.id, hof'.id, hlabel, hshare root hroot root' hroot' hsame]

theorem Reachable.mem_headings_of_mem_select (h : s.Reachable) (hrequest : request.IsWithin s)
    (ht : t ∈ s.select request) : t ∈ s.headings := by
  rw [select_eq] at ht
  have hchosen := Request.mem_of_mem_tagged ((firsts_sublist Tree.target _).subset ht)
  rw [chosen] at hchosen
  split at hchosen
  next => exact hchosen
  next keys hkeys =>
    obtain ⟨key, hkey, hof⟩ := List.mem_flatMap.1 hchosen
    obtain ⟨root, hroot, hin⟩ := hrequest keys hkeys key hkey
    obtain ⟨ts, hts⟩ := h.holdsFiles
    apply List.mem_flatMap.2 ⟨root, hroot, _⟩
    rw [hts.holds.rootTrees_eq] at hroot
    rw [Tree.keys_eq_map_subtrees] at hin
    obtain ⟨n, hn, rfl⟩ := List.mem_map.1 hin
    rcases Tree.mem_subtrees_iff.1 hn with rfl | ⟨outer, houter, hn⟩
    · -- a file stands for its headings
      have hfile := (hts.isTestFile n hroot).isFile
      rw [testsOf, (hts.holds.stands n hroot).node? n.mem_subtrees_self] at hof
      dsimp only at hof
      rw [if_pos hfile, hts.holds.tree?_eq hroot] at hof
      exact hof
    · rw [HoldsFiles.testsOf_eq hts h.ascends hroot houter hn, List.mem_singleton] at hof
      subst hof
      rw [Tree.headings_eq]
      apply List.mem_flatMap.2 ⟨t, houter, _⟩
      rw [if_pos ((hts.isTestFile root hroot).isHeading_of_mem t houter)]
      exact List.mem_cons_self

theorem started_mem_events (hprepare : s.prepare request false run = .inr launch)
    (ht : t ∈ s.select request) :
    { status := .started, nodeId := t.content.id } ∈ launch.run.events := by
  rw [prepare] at hprepare
  dsimp only at hprepare
  split at hprepare
  · cases hprepare
  · cases hprepare
    rw [Run.events, List.mem_filterMap]
    refine ⟨.event { status := .started, nodeId := t.content.id }, ?_, rfl⟩
    apply List.mem_append_left
    rw [Run.log_foldl_started (fun t : Tree => t.content.id)]
    exact List.mem_append_right _ (List.mem_map_of_mem ht)

end Session

namespace Reconciliation

variable {s : Session} {state : State} {result : ReportedTest} {report : Report} {files : Files}
  {heading : Tree} {id : String}

/-- A result is applied to a heading that is in the hierarchy by then, and its events go under the
id of this heading. -/
structure Lands (files : Files) (report : Report) (state : State) (result : ReportedTest)
    (id : String) : Prop where
  applied : ∃ heading ∈ state.session.headings, heading.content.id = id ∧
    step files report state result = applyResult files report state heading result
  events : (step files report state result).run.events =
    state.run.events ++ result.events report id

/-- A result leads to one diagnostic, which is printed, and to nothing else. -/
structure Misses (files : Files) (report : Report) (state : State) (result : ReportedTest) :
    Prop where
  session : (step files report state result).session = state.session
  events : (step files report state result).run.events = state.run.events
  told :
    let diagnostic := s!"No test found for {result.suite}.{result.name}"
    (step files report state result).summary =
        { state.summary with diagnostics := state.summary.diagnostics ++ [diagnostic] } ∧
      (step files report state result).run.output = state.run.output ++ [diagnostic ++ "\n"]

theorem lands_of_headingNamed? (h : state.session.HoldsFiles)
    (hheading : state.session.headingNamed? result.suite result.name = some heading)
    (files : Files) (report : Report) :
    Lands files report state result heading.content.id := by
  have hmem := (h.of_headingNamed? hheading).1
  have hstep : step files report state result = applyResult files report state heading result := by
    rw [step, hheading]
  refine ⟨⟨heading, hmem, rfl, hstep⟩, ?_⟩
  rw [hstep]
  exact (applyResult_run files report state heading result).1

theorem misses_of_headingNamed?
    (hnone : state.session.headingNamed? result.suite result.name = none) (files : Files)
    (report : Report) : Misses files report state result := by
  have hstep : step files report state result = missResult state result := by
    rw [step, hnone]
  refine ⟨?_, ?_, ?_, ?_⟩
  · rw [hstep, missResult]
  · rw [hstep, missResult, Run.events_print]
  · rw [hstep, missResult]
  · rw [hstep, missResult, Run.output_print]

/-- Results that are taken before change nothing about where a result goes. -/
theorem Accounts.lands {run : Run} {results : List ReportedTest}
    (h : Accounts s report run results state)
    (hheading : s.headingNamed? result.suite result.name = some heading) (files : Files) :
    Lands files report state result heading.content.id := by
  obtain ⟨shown, hshown, hface⟩ := Session.exists_headingNamed? h.index hheading
  have hid : shown.content.id = heading.content.id :=
    congrArg (fun face : Key × Node => face.2.id) hface
  exact hid ▸ lands_of_headingNamed? h.holdsFiles hshown files report

theorem Accounts.misses {run : Run} {results : List ReportedTest}
    (h : Accounts s report run results state)
    (hnone : s.headingNamed? result.suite result.name = none) (files : Files) :
    Misses files report state result := by
  apply misses_of_headingNamed?
  have hnamed := h.named? result.suite result.name
  rw [← Session.map_face_headingNamed?, hnone, Option.map_none, Option.map_eq_none_iff] at hnamed
  exact hnamed

end Reconciliation

namespace Session

open Reconciliation (Lands Misses State)

variable {s s' : Session} {nesting : Nat} {request : Request} {run : Run} {launch : Launch}
  {execution : Execution}

def stateBefore (s : Session) (run : Run) (value : Json) : State :=
  { session := s, run := run.print (Report.echo value), summary := {}, sources := [] }

theorem conclude_of_leavesReport (hleaves : execution.LeavesReport nesting s.settings.noise)
    (files : Files) (launch : Launch) :
    ∃ value report noted,
      Report.Holds nesting (KeptOutput.collect s.settings.noise execution {}).1.stdout.toList value
        report ∧
      noted.events = launch.run.events ∧
      let last := report.testResults.foldl (Reconciliation.step files report)
        (s.stateBefore noted value)
      s.conclude nesting files launch execution =
        .ok ⟨some last.summary, last.session, last.run.finish⟩ := by
  obtain ⟨hstart, hcomplete, value, report, hholds⟩ := hleaves
  have htexts := KeptOutput.collect_grows s.settings.noise execution launch.run
  cases hcollect : KeptOutput.collect s.settings.noise execution launch.run with
  | mk output noted =>
    have houtput : (KeptOutput.collect s.settings.noise execution {}).1 = output :=
      congrArg Prod.fst hcollect
    rw [hcollect] at htexts
    refine ⟨value, report, noted, hholds, htexts.events_eq, ?_⟩
    rw [houtput] at hcomplete hholds
    rw [conclude, hstart, hcollect]
    dsimp only
    rw [if_neg (Bool.eq_false_iff.1 hcomplete),
      reconcile_of_load files noted (Report.load_eq_ok_iff.2 hholds)]
    rfl

/-- Results of a run are applied to what is there when they are taken, however files were read anew
since the tests were started. A result for a test that was started and is still declared goes to a
heading of the hierarchy under the id with which the test was started, and a result for a test that
is declared no more is told and goes nowhere. -/
theorem Reachable.conclude_interleaved (h : s.Reachable) (hsteps : ReflTransGen Step s s')
    (hrequest : request.IsWithin s) (hprepare : s.prepare request false run = .inr launch)
    (hshare : s.SharesSuites s') (hleaves : execution.LeavesReport nesting s'.settings.noise)
    (files : Files) :
    ∃ value report noted,
      Report.Holds nesting (KeptOutput.collect s'.settings.noise execution {}).1.stdout.toList value
        report ∧
      noted.events = launch.run.events ∧
      let start := s'.stateBefore noted value
      let last := report.testResults.foldl (Reconciliation.step files report) start
      s'.conclude nesting files launch execution =
        .ok ⟨some last.summary, last.session, last.run.finish⟩ ∧
      ∀ before result after, report.testResults = before ++ result :: after →
        let state := before.foldl (Reconciliation.step files report) start
        (∀ t ∈ s.select request, t.target = result.target →
          (∃ t' ∈ s'.headings, t'.target = result.target) →
            { status := .started, nodeId := t.content.id } ∈ launch.run.events ∧
              Lands files report state result t.content.id) ∧
        ((∀ t' ∈ s'.headings, t'.target ≠ result.target) → Misses files report state result) := by
  have h' := (h.of_steps hsteps).holdsFiles
  obtain ⟨value, report, noted, hholds, hnoted, hconclude⟩ :=
    conclude_of_leavesReport hleaves files launch
  refine ⟨value, report, noted, hholds, hnoted, hconclude, ?_⟩
  intro before result after _
  have haccounts := Reconciliation.accounts_foldl h' files report
    (noted.print (Report.echo value)) before
  have hnone := h'.headingNamed?_eq_none_iff result.suite result.name
  constructor
  · rintro t ht htarget ⟨t', ht', hsame⟩
    refine ⟨started_mem_events hprepare ht, ?_⟩
    cases hheading : s'.headingNamed? result.suite result.name with
    | none => exact absurd hsame (hnone.1 hheading t' ht')
    | some heading =>
      obtain ⟨hmem, hof⟩ := h'.of_headingNamed? hheading
      have hid := hshare.id_eq h.holdsFiles h' (h.mem_headings_of_mem_select hrequest ht) hmem
        (hof.trans htarget.symm)
      exact hid ▸ haccounts.lands hheading files
  · intro hgone
    exact haccounts.misses (hnone.2 hgone) files

namespace Rereading

def path : Path := .ofString "ATest.4dm"

def noClass : Files := .empty ⟨"/", ["w"]⟩

def outerText : String :=
  "Function test_outer($t : Object)\n"

def innerText : String :=
  "// #tags: slow:deep\nFunction test_inner($t : Object)\n"

def twoTests : Files := noClass.write path (outerText ++ innerText).toUTF8.data.toList

def oneTest : Files := noClass.write path ("// changed\n" ++ outerText).toUTF8.data.toList

def passedBoth : Execution where
  stdout :=
    ("\x7b\"testResults\": [" ++
      "\x7b\"suite\": \"ATest\", \"name\": \"test_outer\", \"passed\": true\x7d, " ++
      "\x7b\"suite\": \"ATest\", \"name\": \"test_inner\", \"passed\": true\x7d]\x7d\n"
      ).toUTF8.data.toList

end Rereading

open Rereading

/-- While both tests of a class run, the class is deleted, and written again with one of them. -/
theorem Reachable.conclude_interleaved_rereading :
    ∃ (s s' : Session) (launch : Launch), s.prepare {} false {} = .inr launch ∧
      { status := .started, nodeId := "/w/ATest.4dm/test_outer" } ∈ launch.run.events ∧
      ∃ (report : Report) (state : State) (first second : ReportedTest),
        report.testResults = [first, second] ∧ state.session = s' ∧
          Lands oneTest report state first "/w/ATest.4dm/test_outer" ∧
          Misses oneTest report (Reconciliation.step oneTest report state first) second := by
  have hfacts : ((Session.refresh { workspace := noClass.current, settings := .default } twoTests
      path).toOption.bind fun p => (p.2.refresh noClass path).toOption.bind fun q =>
        (q.2.refresh oneTest path).toOption.map fun r =>
          ((p.2.select {}).map fun t => (t.target, t.content.id),
            (p.2.hierarchy.rootTrees ++ r.2.hierarchy.rootTrees).map fun t => t.content.id,
            r.2.headings.map Tree.target, r.2.settings)) =
      some ([(⟨"ATest", "test_outer"⟩, "/w/ATest.4dm/test_outer"),
          (⟨"ATest", "test_inner"⟩, "/w/ATest.4dm/test_inner")],
        ["/w/ATest.4dm", "/w/ATest.4dm"], [⟨"ATest", "test_outer"⟩], .default) := by
    decide +kernel
  have hload : (Report.load 993 (KeptOutput.collect Settings.default.noise passedBoth
      {}).1.stdout.toList).toOption.map (fun p => p.2.testResults.map ReportedTest.target) =
        some [⟨"ATest", "test_outer"⟩, ⟨"ATest", "test_inner"⟩] := by
    decide +kernel
  simp only [Option.bind_eq_some_iff, Option.map_eq_some_iff, Prod.mk.injEq] at hfacts hload
  obtain ⟨⟨_, s⟩, hfirst, ⟨_, mid⟩, hgone, ⟨_, s'⟩, hagain, hselect, hroots, hheadings,
    hsettings⟩ := hfacts
  obtain ⟨⟨value, report⟩, hread, htargets⟩ := hload
  have hreach : s.Reachable := .step (.start _ _) (.refresh (eq_ok_of_toOption hfirst))
  have hsteps : ReflTransGen Step s s' :=
    .tail (.single (.refresh (eq_ok_of_toOption hgone))) (.refresh (eq_ok_of_toOption hagain))
  obtain ⟨t, _, hselected, ht, _⟩ := List.map_eq_cons_iff.1 hselect
  obtain ⟨htarget, hid⟩ := Prod.mk.inj ht
  have hchosen : t ∈ s.select {} := hselected ▸ List.mem_cons_self
  obtain ⟨launch, hprepare⟩ : ∃ launch, s.prepare {} false {} = .inr launch := by
    rw [prepare, if_neg fun he => List.ne_nil_of_mem hchosen ((isEmpty_targetsOf _).1 he)]
    exact ⟨_, rfl⟩
  have hroot : ∀ root ∈ s.hierarchy.rootTrees ++ s'.hierarchy.rootTrees,
      root.content.id = "/w/ATest.4dm" := by
    intro root hroot
    have hmem := List.mem_map_of_mem (f := fun t : Tree => t.content.id) hroot
    rw [hroots] at hmem
    simpa using hmem
  have hshare : s.SharesSuites s' := by
    intro root hold root' hnew _
    rw [hroot root (List.mem_append_left _ hold), hroot root' (List.mem_append_right _ hnew)]
  have hleaves : passedBoth.LeavesReport 993 s'.settings.noise := by
    rw [hsettings]
    exact ⟨rfl, by decide +kernel, value, report,
      Report.load_eq_ok_iff.1 (eq_ok_of_toOption hread)⟩
  have hwithin : Request.IsWithin {} s := by
    intro keys hkeys
    cases hkeys
  obtain ⟨_, _, noted, hholds, _, _, hresults⟩ := hreach.conclude_interleaved hsteps hwithin
    hprepare hshare hleaves oneTest
  rw [hsettings, ← Report.load_eq_ok_iff, eq_ok_of_toOption hread] at hholds
  cases hholds
  obtain ⟨first, _, hall, hfirst, hrest⟩ := List.map_eq_cons_iff.1 htargets
  obtain ⟨second, _, rfl, hsecond, hnil⟩ := List.map_eq_cons_iff.1 hrest
  obtain rfl := List.map_eq_nil_iff.1 hnil
  obtain ⟨t', hlast, ht'⟩ := List.map_eq_singleton_iff.1 hheadings
  have hlands := (hresults [] first [second] hall).1 t hchosen (htarget.trans hfirst.symm)
    ⟨t', hlast ▸ List.mem_singleton_self t', ht'.trans hfirst.symm⟩
  have hmisses := (hresults [first] second [] hall).2
  rw [hid] at hlands
  refine ⟨s, s', launch, hprepare, hlands.1, report, _, first, second, hall, rfl, hlands.2,
    hmisses ?_⟩
  intro t'' ht''
  rw [hlast, List.mem_singleton] at ht''
  rw [ht'', ht', hsecond]
  decide

end Session

end SuiteAtlas
