import Mathlib.Data.List.Permutation
import SuiteAtlas.Proofs.Session.Repetition

namespace SuiteAtlas

open Address (Owns)

variable {s : Session} {nesting : Nat} {files : Files} {report report' : Report}
  {first second : ReportedTest} {results results' : List ReportedTest}
  {output output' : List Char} {run : Run}

/-- Steps that results of distinct tests may take in either order lead from all results of distinct
tests, in whatever order, to the same. -/
theorem ReportedTest.foldl_perm {β : Type} {turn : β → ReportedTest → β}
    (hturn : ∀ first second : ReportedTest, first.target ≠ second.target →
      ∀ x, turn (turn x first) second = turn (turn x second) first)
    (hperm : results'.Perm results) (hdistinct : (results.map target).Nodup) (x : β) :
    results'.foldl turn x = results.foldl turn x := by
  symm
  apply hperm.symm.foldl_eq'
  intro first hfirst second hsecond x
  by_cases he : first.target = second.target
  · rw [List.inj_on_of_nodup_map hdistinct hfirst hsecond he]
  · exact hturn first second he x

namespace Session

theorem HoldsFiles.target_eq_of_named? (hs : s.HoldsFiles) {named named' : Key × Node}
    (hfirst : s.hierarchy.named? first.suite first.name = some named)
    (hsecond : s.hierarchy.named? second.suite second.name = some named')
    (hkey : named.1 = named'.1) : first.target = second.target := by
  rw [← map_face_headingNamed?, Option.map_eq_some_iff] at hfirst hsecond
  obtain ⟨t, ht, rfl⟩ := hfirst
  obtain ⟨t', ht', rfl⟩ := hsecond
  obtain ⟨hmem, htarget⟩ := hs.of_headingNamed? ht
  obtain ⟨hmem', htarget'⟩ := hs.of_headingNamed? ht'
  obtain rfl := List.inj_on_of_nodup_map hs.nodup_keys_headings hmem hmem' hkey
  exact htarget.symm.trans htarget'

theorem owns_of_mem_eventsOf {e : RunEvent} (he : e ∈ s.eventsOf report first) :
    ∃ heading, s.headingNamed? first.suite first.name = some heading ∧
      Owns heading.content.id e.nodeId := by
  rw [eventsOf] at he
  cases hheading : s.headingNamed? first.suite first.name with
  | none =>
    rw [hheading] at he
    cases he
  | some heading =>
    rw [hheading] at he
    exact ⟨heading, rfl, ReportedTest.owns_of_mem_events he⟩

theorem HoldsFiles.target_eq_of_mem_eventsOf (hs : s.HoldsFiles) {e e' : RunEvent}
    (he : e ∈ s.eventsOf report first) (he' : e' ∈ s.eventsOf report' second)
    (hid : e.nodeId = e'.nodeId) : first.target = second.target := by
  obtain ⟨t, ht, howns⟩ := owns_of_mem_eventsOf he
  obtain ⟨t', ht', howns'⟩ := owns_of_mem_eventsOf he'
  obtain ⟨ts, hts⟩ := id hs
  obtain ⟨r, hr, hmem, hh⟩ := headingNamed?_spec hts ht
  obtain ⟨r', hr', hmem', hh'⟩ := headingNamed?_spec hts ht'
  obtain rfl := hts.eq_of_owns hr hr' hmem hmem' hh hh' howns (hid ▸ howns')
  exact (hs.of_headingNamed? ht).2.symm.trans (hs.of_headingNamed? ht').2

theorem eventsOf_of_failures_eq (hfailures : report'.failures = report.failures) :
    s.eventsOf report' = s.eventsOf report := by
  funext result
  have hreason : report'.reasonFor = report.reasonFor := by
    funext suite test
    rw [Report.reasonFor, Report.reasonFor, hfailures]
  simp only [eventsOf, ReportedTest.events, ReportedTest.verdict, hreason]

theorem tally_perm (s : Session) (hperm : results'.Perm results) :
    (s.tally results').passed = (s.tally results).passed ∧
      (s.tally results').failed = (s.tally results).failed ∧
      (s.tally results').failedAssertions = (s.tally results).failedAssertions ∧
      (s.tally results').diagnostics.Perm (s.tally results).diagnostics := by
  have hknown := hperm.filter s.knows
  exact ⟨hknown.countP_eq _, hknown.countP_eq _, ((hknown.filter _).map _).sum_nat,
    (hperm.filter _).map _⟩

end Session

namespace Reconciliation

theorem placeAfter_comm (hs : s.HoldsFiles) (files : Files) (key : Key) (place : Nat)
    (hne : first.target ≠ second.target) (p : Option Node) :
    placeAfter files s.hierarchy key place (placeAfter files s.hierarchy key place p first)
        second =
      placeAfter files s.hierarchy key place (placeAfter files s.hierarchy key place p second)
        first := by
  by_cases hfirst : (s.hierarchy.named? first.suite first.name).map Prod.fst = some key
  · have hsecond : (s.hierarchy.named? second.suite second.name).map Prod.fst ≠ some key := by
      intro hsecond
      obtain ⟨named, hnamed, hkey⟩ := Option.map_eq_some_iff.1 hfirst
      obtain ⟨named', hnamed', hkey'⟩ := Option.map_eq_some_iff.1 hsecond
      exact hne (hs.target_eq_of_named? hnamed hnamed' (hkey.trans hkey'.symm))
    rw [placeAfter_of_ne hsecond, placeAfter_of_ne hsecond]
  · rw [placeAfter_of_ne hfirst, placeAfter_of_ne hfirst]

/-- Of two results of distinct tests at most one has an event of a node. -/
theorem find?_eventsOf_comm (hs : s.HoldsFiles) (report : Report) (id : String)
    (hne : first.target ≠ second.target) (last : Option RunEvent) :
    let lastOf := fun result =>
      (s.eventsOf report result).reverse.find? fun event => event.nodeId == id
    (lastOf second).or ((lastOf first).or last) = (lastOf first).or ((lastOf second).or last) := by
  intro lastOf
  cases hfirst : lastOf first with
  | none => rfl
  | some e =>
    cases hsecond : lastOf second with
    | none => rfl
    | some e' =>
      have hin := List.mem_reverse.1 (List.mem_of_find?_eq_some hfirst)
      have hin' := List.mem_reverse.1 (List.mem_of_find?_eq_some hsecond)
      have hid := List.find?_some hfirst
      have hid' := List.find?_some hsecond
      rw [beq_iff_eq] at hid hid'
      exact absurd (hs.target_eq_of_mem_eventsOf hin hin' (hid.trans hid'.symm)) hne

end Reconciliation

namespace Session

open Reconciliation

theorem exists_reconcile_accounts {value : Json} (hs : s.HoldsFiles) (files : Files) (run : Run)
    (hload : Report.load nesting output = .ok (value, report)) :
    ∃ outcome, s.reconcile nesting files output run = .ok outcome ∧
      outcome.summary = s.tally report.testResults ∧
      outcome.run.events = run.events ++ report.testResults.flatMap (s.eventsOf report) := by
  have haccounts :=
    accounts_foldl hs files report (run.print (Report.echo value)) report.testResults
  refine ⟨_, reconcile_of_load files run hload, haccounts.summary, ?_⟩
  rw [← Run.events_print run (Report.echo value)]
  exact haccounts.events

theorem Reachable.map_unstamped_rootTrees_eq {outcome outcome' : Reconciled} (h : s.Reachable)
    (hok : s.reconcile nesting files output run = .ok outcome)
    (hok' : s.reconcile nesting files output' run = .ok outcome')
    (hplaces : ∀ key place p,
      (Report.resultsIn nesting output').foldl (placeAfter files s.hierarchy key place) p =
        (Report.resultsIn nesting output).foldl (placeAfter files s.hierarchy key place) p) :
    outcome'.session.hierarchy.rootTrees.map Tree.unstamped =
      outcome.session.hierarchy.rootTrees.map Tree.unstamped := by
  have hframes := h.frames_reconciled nesting files output run
  have hframes' := h.frames_reconciled nesting files output' run
  rw [reconciled, hok] at hframes
  rw [reconciled, hok'] at hframes'
  obtain ⟨ts, hts⟩ := h.holdsFiles
  obtain ⟨us, hus⟩ := hframes.holdsFiles
  obtain ⟨us', hus'⟩ := hframes'.holdsFiles
  have hskeletons := hframes.keeps.map_skeleton_rootTrees h.ascends hframes.ascends hts.holds
  have hskeletons' := hframes'.keeps.map_skeleton_rootTrees h.ascends hframes'.ascends hts.holds
  apply hus.map_unstamped_rootTrees hus' (hskeletons'.trans hskeletons.symm)
  intro key hkey
  rw [Hierarchy.headingKeys, hframes.index] at hkey
  apply List.ext_getElem?
  intro place
  rw [List.getElem?_map, List.getElem?_map, reconcile_place h.holdsFiles hok' hkey,
    reconcile_place h.holdsFiles hok hkey, hplaces]

/-- The results of a report, each about another test, may come in any order: they lead to the same
trees, keys and stamps apart, to the same counts, to the same diagnostics in some order, and to the
same last event of every node. -/
theorem Reachable.reconcile_perm {value value' : Json} (h : s.Reachable) (files : Files)
    (run : Run) (hload : Report.load nesting output = .ok (value, report))
    (hload' : Report.load nesting output' = .ok (value', report'))
    (hfailures : report'.failures = report.failures)
    (hperm : report'.testResults.Perm report.testResults)
    (hdistinct : (report.testResults.map ReportedTest.target).Nodup) :
    ∃ outcome outcome', s.reconcile nesting files output run = .ok outcome ∧
      s.reconcile nesting files output' run = .ok outcome' ∧
      outcome'.session.hierarchy.rootTrees.map Tree.unstamped =
        outcome.session.hierarchy.rootTrees.map Tree.unstamped ∧
      outcome'.summary.passed = outcome.summary.passed ∧
      outcome'.summary.failed = outcome.summary.failed ∧
      outcome'.summary.failedAssertions = outcome.summary.failedAssertions ∧
      outcome'.summary.diagnostics.Perm outcome.summary.diagnostics ∧
      ∀ id, outcome'.run.lastEvents.lookup id = outcome.run.lastEvents.lookup id := by
  obtain ⟨outcome, hok, hsummary, hevents⟩ :=
    exists_reconcile_accounts h.holdsFiles files run hload
  obtain ⟨outcome', hok', hsummary', hevents'⟩ :=
    exists_reconcile_accounts h.holdsFiles files run hload'
  obtain ⟨hpassed, hfailed, hassertions, hdiagnostics⟩ := s.tally_perm hperm
  rw [← hsummary, ← hsummary'] at hpassed hfailed hassertions hdiagnostics
  refine ⟨outcome, outcome', hok, hok', ?_, hpassed, hfailed, hassertions, hdiagnostics, ?_⟩
  · apply h.map_unstamped_rootTrees_eq hok hok'
    intro key place p
    rw [Report.resultsIn, Report.resultsIn, hload, hload']
    exact ReportedTest.foldl_perm
      (fun _ _ hne => placeAfter_comm h.holdsFiles files key place hne) hperm hdistinct p
  · intro id
    rw [eventsOf_of_failures_eq hfailures] at hevents'
    rw [Run.lookup_lastEvents_flatMap hevents', Run.lookup_lastEvents_flatMap hevents]
    exact ReportedTest.foldl_perm
      (fun _ _ hne => find?_eventsOf_comm h.holdsFiles report id hne) hperm hdistinct _

/-- A test that contains another one, the other one, and a test of no file. -/
def threeResults : List ReportedTest :=
  [⟨"T", "test_outer", false, none, none, [⟨"", .null, .null, false, none, none, none⟩]⟩,
    ⟨"T", "test_inner", false, none, none, []⟩, ⟨"G", "g", false, none, none, []⟩]

def threeTexts : List String :=
  ["\x7b\"suite\":\"T\",\"name\":\"test_outer\",\"assertions\":[\x7b\x7d]\x7d",
    "\x7b\"suite\":\"T\",\"name\":\"test_inner\"\x7d", "\x7b\"suite\":\"G\",\"name\":\"g\"\x7d"]

def reportText (results : List String) : List Char :=
  ("\x7b\"testResults\":[" ++ ",".intercalate results ++ "]\x7d").toList

def threeValues : List Json :=
  [.object [("suite", .string "T"), ("name", .string "test_outer"),
      ("assertions", .array [.object []])],
    .object [("suite", .string "T"), ("name", .string "test_inner")],
    .object [("suite", .string "G"), ("name", .string "g")]]

def reportValue (results : List Json) : Json :=
  .object [("testResults", .array results)]

set_option maxRecDepth 4000 in
theorem Reachable.reconcile_perm_threeTexts :
    let s := (oneFile.plantText 0 nestedText none).2
    ∃ outcome outcome', s.reconcile 993 nestedFile (reportText threeTexts) {} = .ok outcome ∧
      s.reconcile 993 nestedFile (reportText threeTexts.reverse) {} = .ok outcome' ∧
      outcome.summary = { failed := 2, failedAssertions := 1,
                          diagnostics := ["No test found for G.g"] } ∧
      outcome'.summary.failed = 2 ∧
      outcome'.session.hierarchy.rootTrees.map Tree.unstamped =
        outcome.session.hierarchy.rootTrees.map Tree.unstamped ∧
      ∀ id, outcome'.run.lastEvents.lookup id = outcome.run.lastEvents.lookup id := by
  intro s
  have hread : Json.read 993 (reportText threeTexts) = .ok (reportValue threeValues) := by cbv
  have hread' : Json.read 993 (reportText threeTexts.reverse) =
      .ok (reportValue threeValues.reverse) := by cbv
  have hshape : Report.ofJson (reportValue threeValues) = .ok ⟨threeResults, []⟩ := by rfl
  have hshape' : Report.ofJson (reportValue threeValues.reverse) =
      .ok ⟨threeResults.reverse, []⟩ := by rfl
  have hpart : Report.braced? (reportText threeTexts) = some (reportText threeTexts) := by
    decide +kernel
  have hpart' : Report.braced? (reportText threeTexts.reverse) =
      some (reportText threeTexts.reverse) := by decide +kernel
  have hload := Report.load_eq_ok_iff.2 ⟨_, Report.isBraced_of_braced? hpart, hread, hshape⟩
  have hload' := Report.load_eq_ok_iff.2 ⟨_, Report.isBraced_of_braced? hpart', hread', hshape'⟩
  have htally : s.tally threeResults =
      { failed := 2, failedAssertions := 1, diagnostics := ["No test found for G.g"] } := by
    decide +kernel
  have hdistinct : (threeResults.map ReportedTest.target).Nodup := by decide
  obtain ⟨outcome, outcome', hok, hok', htrees, _, hfailed, _, _, hevents⟩ :=
    Reachable.reconcile_perm reachable_nestedText nestedFile {} hload hload' rfl
      (List.reverse_perm threeResults) hdistinct
  obtain ⟨_, hsame, hsummary, _⟩ :=
    exists_reconcile_accounts reachable_nestedText.holdsFiles nestedFile {} hload
  obtain rfl := Except.ok.inj (hok.symm.trans hsame)
  rw [htally] at hsummary
  exact ⟨outcome, outcome', hok, hok', hsummary, by rw [hfailed, hsummary], htrees, hevents⟩

end Session

end SuiteAtlas
