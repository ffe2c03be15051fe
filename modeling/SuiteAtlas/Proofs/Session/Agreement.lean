import SuiteAtlas.Proofs.Session.Account

namespace SuiteAtlas

open Address

/-- The ids in the events of a heading: its own, and those of its reported assertions. -/
def Address.Owns (id other : String) : Prop :=
  other = id ∨ ∃ i, other = below id (resultText i)

theorem ReportedTest.owns_of_mem_events {result : ReportedTest} {report : Report} {id : String}
    {e : RunEvent} (he : e ∈ result.events report id) : Owns id e.nodeId := by
  rw [ReportedTest.events, List.mem_append, List.mem_singleton] at he
  rcases he with he | rfl
  · obtain ⟨p, _, he⟩ := List.mem_flatMap.1 he
    exact .inr ⟨p.2, ReportedAssertion.nodeId_of_mem_events he⟩
  · exact .inl (result.nodeId_verdict report id)

namespace Hierarchy.HoldsFiles

variable {h : Hierarchy} {ts : List Tree} {t r s s' : Tree}

theorem eq_of_id_eq (hts : h.HoldsFiles ts) (ht : t ∈ ts) (hr : r ∈ ts) (hs : s ∈ t.subtrees)
    (hs' : s' ∈ r.subtrees) (hh : s.isHeading = true) (hh' : s'.isHeading = true)
    (hid : s.content.id = s'.content.id) : s = s' := by
  have hof := (hts.isTestFile t ht).isHeadingOf_of_mem s hs hh
  have hof' := (hts.isTestFile r hr).isHeadingOf_of_mem s' hs' hh'
  have hroot : t.content.id = r.content.id := by
    rw [hof.id, hof'.id] at hid
    exact (below_inj_of_slash_notMem hof.isStep.slash_notMem hof'.isStep.slash_notMem hid).1
  obtain rfl := List.inj_on_of_nodup_map hts.nodup_ids ht hr hroot
  have hids := (hts.isTestFile t ht).nodup_ids (hts.holds.keys_nodup ht)
  rw [Tree.preorder_eq_map_subtrees, List.map_map] at hids
  exact List.inj_on_of_nodup_map hids hs hs' hid

/-- No id is in the events of two headings. -/
theorem eq_of_owns {id : String} (hts : h.HoldsFiles ts) (ht : t ∈ ts) (hr : r ∈ ts)
    (hs : s ∈ t.subtrees) (hs' : s' ∈ r.subtrees) (hh : s.isHeading = true)
    (hh' : s'.isHeading = true) (ho : Owns s.content.id id) (ho' : Owns s'.content.id id) :
    s = s' := by
  have hof := (hts.isTestFile t ht).isHeadingOf_of_mem s hs hh
  have hof' := (hts.isTestFile r hr).isHeadingOf_of_mem s' hs' hh'
  apply hts.eq_of_id_eq ht hr hs hs' hh hh'
  rcases ho with rfl | ⟨i, rfl⟩
  · rcases ho' with he | ⟨j, he⟩
    · exact he
    · rw [hof.id] at he
      exact absurd he (below_ne_below_resultText hof.isStep _ j)
  · rcases ho' with he | ⟨j, he⟩
    · rw [hof'.id] at he
      exact absurd he.symm (below_ne_below_resultText hof'.isStep _ i)
    · exact (below_resultText_inj he).1

end Hierarchy.HoldsFiles

namespace Reconciliation

variable {s : Session} {state : State} {result other : ReportedTest}
  {results before after : List ReportedTest} {report : Report} {files : Files} {run : Run}
  {heading : Key × Node}

/-- The tree and the record show a result, the last one that has its heading. -/
structure Agrees (report : Report) (result : ReportedTest) (heading : Key × Node) (state : State) :
    Prop where
  assertions : ∃ stamp source previous, state.session.hierarchy.assertionsAt heading.1 =
    (resultNodes heading.2 stamp source 0 previous result.assertions).map
      (Node.withParent (some heading.1))
  events : ∃ before after, state.run.events = before ++ result.events report heading.2.id ++ after ∧
    ∀ e ∈ after, ¬ Owns heading.2.id e.nodeId

theorem agrees_step (h : Accounts s report run results state) (files : Files)
    (hnamed : s.hierarchy.named? result.suite result.name = some heading) :
    Agrees report result heading (step files report state result) := by
  have hnamed' : state.session.hierarchy.named? result.suite result.name = some heading := by
    rw [Hierarchy.named?_of_index_eq h.index, hnamed]
  constructor
  · exact ⟨_, _, _, step_assertionsAt h.holdsFiles hnamed' files report⟩
  · rw [← Session.map_face_headingNamed?, Option.map_eq_some_iff] at hnamed'
    obtain ⟨t, hheading, rfl⟩ := hnamed'
    refine ⟨state.run.events, [], ?_, List.forall_mem_nil _⟩
    rw [step, hheading, List.append_nil]
    exact (applyResult_run files report state t result).1

theorem Agrees.step (hagrees : Agrees report result heading state)
    (h : Accounts s report run results state) (files : Files)
    (hnamed : s.hierarchy.named? result.suite result.name = some heading)
    (hother : (s.hierarchy.named? other.suite other.name).map Prod.fst ≠ some heading.1) :
    Agrees report result heading (step files report state other) := by
  rw [← Hierarchy.named?_of_index_eq h.index] at hnamed hother
  constructor
  · obtain ⟨stamp, source, previous, hassertions⟩ := hagrees.assertions
    have hkey := Hierarchy.mem_headingKeys_of_named? hnamed
    exact ⟨stamp, source, previous,
      (step_assertionsAt_of_ne h.holdsFiles hkey hother files report).trans hassertions⟩
  · obtain ⟨before, after, hevents, hafter⟩ := hagrees.events
    rw [Reconciliation.step]
    cases hheading : state.session.headingNamed? other.suite other.name with
    | none =>
      refine ⟨before, after, ?_, hafter⟩
      rw [missResult, Run.events_print, hevents]
    | some t =>
      refine ⟨before, after ++ other.events report t.content.id, ?_, ?_⟩
      · rw [(applyResult_run files report state t other).1, hevents, List.append_assoc]
      · rw [List.forall_mem_append]
        -- an event of the other heading that is owned by this one would make them the same
        refine ⟨hafter, fun e he howns => ?_⟩
        rw [← Session.map_face_headingNamed?, Option.map_eq_some_iff] at hnamed
        obtain ⟨t', hheading', rfl⟩ := hnamed
        obtain ⟨ts, hts⟩ := h.holdsFiles
        obtain ⟨r, hr, hmem, hh⟩ := Session.headingNamed?_spec hts hheading
        obtain ⟨r', hr', hmem', hh'⟩ := Session.headingNamed?_spec hts hheading'
        obtain rfl := hts.eq_of_owns hr hr' hmem hmem' hh hh'
          (ReportedTest.owns_of_mem_events he) howns
        rw [Session.named?_eq_face hheading] at hother
        exact hother rfl

theorem agrees_foldl (h : s.HoldsFiles) (files : Files) (report : Report) (run : Run)
    (hnamed : s.hierarchy.named? result.suite result.name = some heading)
    (hafter : ∀ other ∈ after,
      (s.hierarchy.named? other.suite other.name).map Prod.fst ≠ some heading.1) :
    Agrees report result heading ((before ++ result :: after).foldl (step files report)
      { session := s, run, summary := {}, sources := [] }) := by
  -- induction from the end, since `Accounts` speaks of the results before the one that is taken
  induction after using List.reverseRecOn with
  | nil =>
    rw [List.foldl_append]
    exact agrees_step (accounts_foldl h files report run before) files hnamed
  | append_singleton after other ih =>
    rw [List.forall_mem_append, List.forall_mem_singleton] at hafter
    rw [← List.cons_append, ← List.append_assoc, List.foldl_append]
    exact (ih hafter.1).step (accounts_foldl h files report run _) files hnamed hafter.2

theorem Agrees.lookup_heading (h : Agrees report result heading state) :
    state.run.lastEvents.lookup heading.2.id = some (result.verdict report heading.2.id) := by
  obtain ⟨before, after, hevents, hafter⟩ := h.events
  rw [ReportedTest.events, ← List.append_assoc, List.append_assoc, List.singleton_append] at hevents
  have hlast := Run.lookup_lastEvents_of_append hevents fun e he hid =>
    hafter e he (.inl (hid.trans (result.nodeId_verdict report _)))
  rwa [result.nodeId_verdict] at hlast

theorem events_eq_append {a : ReportedAssertion} {i : Nat} (ha : result.assertions[i]? = some a)
    (report : Report) (id : String) :
    ∃ before after, result.events report id =
        before ++ a.verdict (below id (resultText i)) :: after ∧
      ∀ e ∈ after, e.nodeId ≠ below id (resultText i) := by
  have hmem : (a, i) ∈ result.assertions.zipIdx := List.mem_zipIdx_iff_getElem?.2 ha
  obtain ⟨left, right, hsplit⟩ := List.append_of_mem hmem
  have hright : ∀ p ∈ right, p.2 ≠ i := by
    have hnodup : (result.assertions.zipIdx.map Prod.snd).Nodup := by
      rw [List.zipIdx_map_snd]
      exact List.nodup_range'
    rw [hsplit, List.map_append, List.map_cons, List.nodup_append, List.nodup_cons] at hnodup
    exact fun p hp he => hnodup.2.1.1 (List.mem_map.2 ⟨p, hp, he⟩)
  refine ⟨(left.flatMap fun p => p.1.events (below id (resultText p.2))) ++
      [{ status := .started, nodeId := below id (resultText i) }],
    (right.flatMap fun p => p.1.events (below id (resultText p.2))) ++ [result.verdict report id],
    ?_, ?_⟩
  · rw [ReportedTest.events, hsplit, List.flatMap_append, List.flatMap_cons,
      ReportedAssertion.events]
    simp only [List.append_assoc, List.cons_append, List.nil_append]
  · intro e he
    rcases List.mem_append.1 he with he | he
    · obtain ⟨p, hp, he⟩ := List.mem_flatMap.1 he
      rw [ReportedAssertion.nodeId_of_mem_events he]
      exact fun hid => hright p hp (resultText_inj.1 (below_inj.1 hid))
    · rw [List.mem_singleton.1 he, result.nodeId_verdict]
      exact (below_ne_self id _).symm

theorem Agrees.lookup_assertion (h : Agrees report result heading state) {a : ReportedAssertion}
    {i : Nat} (ha : result.assertions[i]? = some a) :
    state.run.lastEvents.lookup (below heading.2.id (resultText i)) =
      some (a.verdict (below heading.2.id (resultText i))) := by
  obtain ⟨before, after, hevents, hafter⟩ := h.events
  obtain ⟨left, right, hsplit, hright⟩ := events_eq_append ha report heading.2.id
  have hnode : (a.verdict (below heading.2.id (resultText i))).nodeId =
      below heading.2.id (resultText i) :=
    ReportedAssertion.nodeId_of_mem_events (List.mem_cons_of_mem _ (List.mem_singleton_self _))
  rw [hsplit, ← List.append_assoc, List.append_assoc, List.cons_append] at hevents
  have hlast := Run.lookup_lastEvents_of_append hevents (by
    rw [List.forall_mem_append, hnode]
    exact ⟨hright, fun e he hid => hafter e he (.inr ⟨i, hid⟩)⟩)
  rwa [hnode] at hlast

end Reconciliation

namespace Session

open Reconciliation

/-- A report accounts for each of its results, and leaves tree and record in agreement: the
headings that it names show the assertions of the last result that has them, in order, and the last
events are the verdicts of this result. -/
theorem Reachable.reconcile_account {s : Session} (h : s.Reachable) (files : Files)
    {nesting : Nat} {output : List Char} {value : Json} {report : Report} (run : Run)
    (hload : Report.load nesting output = .ok (value, report)) :
    ∃ outcome, s.reconcile nesting files output run = .ok outcome ∧
      outcome.summary = s.tally report.testResults ∧
      outcome.summary.passed + outcome.summary.failed + outcome.summary.diagnostics.length =
        report.testResults.length ∧
      outcome.run.output = run.output ++ Report.echo value ::
        (s.missed report.testResults).map (· ++ "\n") ∧
      outcome.run.events = run.events ++ report.testResults.flatMap (s.eventsOf report) ∧
      ∀ before result after heading, report.testResults = before ++ result :: after →
        s.headingNamed? result.suite result.name = some heading →
        (∀ other ∈ after, (s.headingNamed? other.suite other.name).map Tree.key ≠
          some heading.key) →
        ∃ shown, outcome.session.headingNamed? result.suite result.name = some shown ∧
          shown.face = heading.face ∧
          (outcome.run.lastEvents.lookup shown.content.id).map RunEvent.status =
            some (.ofPassed result.passed) ∧
          shown.assertions.length = result.assertions.length ∧
          ∀ i a, result.assertions[i]? = some a → ∃ node, shown.assertions[i]? = some node ∧
            (∃ stamp source previous, node =
              (resultNode shown.content stamp source i previous a).withParent (some shown.key)) ∧
            (outcome.run.lastEvents.lookup node.id).map RunEvent.status =
              some (.ofPassed a.passed) := by
  have haccounts : Accounts s report (run.print (Report.echo value)) report.testResults
      (applyReport files s run (Report.echo value) report) :=
    accounts_foldl h.holdsFiles files report _ _
  refine ⟨_, reconcile_of_load files run hload, haccounts.summary, ?_, ?_, ?_, ?_⟩
  · rw [haccounts.summary, tally_total]
  · rw [haccounts.output, Run.output_print, List.append_assoc, List.singleton_append]
  · rw [haccounts.events, Run.events_print]
  · intro before result after heading hsplit hheading hafter
    have hnamed := named?_eq_face hheading
    have hagrees : Agrees report result heading.face
        (applyReport files s run (Report.echo value) report) := by
      rw [applyReport, hsplit]
      apply agrees_foldl h.holdsFiles files report _ hnamed
      intro other hother
      rw [← map_face_headingNamed?, Option.map_map]
      exact hafter other hother
    obtain ⟨shown, hshown, hface⟩ := exists_headingNamed? haccounts.index hheading
    rw [← hface] at hagrees
    obtain ⟨stamp, source, previous, hassertions⟩ := hagrees.assertions
    have hnodes : shown.assertions =
        (resultNodes shown.content stamp source 0 previous result.assertions).map
          (Node.withParent (some shown.key)) := by
      rw [← haccounts.holdsFiles.assertionsAt_eq hshown]
      exact hassertions.trans (congrArg _ (resultNodes_withChildren ..))
    refine ⟨shown, hshown, hface, ?_, ?_, fun i a ha => ?_⟩
    · exact (congrArg (Option.map RunEvent.status) hagrees.lookup_heading).trans
        (congrArg some (result.status_verdict report _))
    · rw [hnodes, List.length_map, length_resultNodes]
    · refine ⟨_, ?_, ⟨stamp, source, previous[i]?, rfl⟩, ?_⟩
      · rw [hnodes, List.getElem?_map, getElem?_resultNodes, ha, Nat.zero_add]
        rfl
      · have hid : ((resultNode shown.content stamp source i previous[i]? a).withParent
            (some shown.key)).id = Address.below shown.content.id (resultText i) :=
          id_resultNode shown.content stamp source i previous[i]? a
        rw [hid]
        exact (congrArg (Option.map RunEvent.status) (hagrees.lookup_assertion ha)).trans
          (congrArg some (a.status_verdict _))

/-- A report that names one test twice, and a test of no file in between. -/
def twiceText : List Char :=
  ("[start] \x7b\"testResults\": [" ++
    "\x7b\"suite\": \"T\", \"name\": \"test_outer\", \"passed\": true\x7d, " ++
    "\x7b\"suite\": \"G\", \"name\": \"test_g\"\x7d, " ++
    "\x7b\"suite\": \"T\", \"name\": \"test_outer\", \"assertions\": [\x7b\x7d]\x7d]\x7d").toList

theorem Reachable.reconcile_account_twiceText :
    let s := (oneFile.plantText 0 nestedText none).2
    ∃ outcome shown, s.reconcile 993 (.empty ⟨"/", []⟩) twiceText {} = .ok outcome ∧
      outcome.summary = { passed := 1, failed := 1, failedAssertions := 1,
                          diagnostics := ["No test found for G.test_g"] } ∧
      outcome.session.headingNamed? "T" "test_outer" = some shown ∧
      shown.assertions.length = 1 ∧
      (outcome.run.lastEvents.lookup shown.content.id).map RunEvent.status = some .failed := by
  intro s
  have hfacts : (Report.load 993 twiceText).toOption.map (fun p => (s.tally p.2.testResults,
      p.2.testResults.getLast?.map fun r => (r.suite, r.name, r.passed, r.assertions.length))) =
        some ({ passed := 1, failed := 1, failedAssertions := 1,
                diagnostics := ["No test found for G.test_g"] },
              some ("T", "test_outer", false, 1)) := by decide +kernel
  have hknown : (s.headingNamed? "T" "test_outer").isSome = true := by decide +kernel
  obtain ⟨heading, hheading⟩ := Option.isSome_iff_exists.1 hknown
  cases hload : Report.load 993 twiceText with
  | error failure =>
    rw [hload] at hfacts
    cases hfacts
  | ok found =>
    obtain ⟨value, report⟩ := found
    rw [hload] at hfacts
    obtain ⟨htally, hlast⟩ := Prod.mk.inj (Option.some.inj hfacts)
    obtain ⟨result, hresult, hfields⟩ := Option.map_eq_some_iff.1 hlast
    obtain ⟨outcome, hreconcile, hsummary, _, _, _, hshown⟩ :=
      Reachable.reconcile_account reachable_nestedText (.empty ⟨"/", []⟩) {} hload
    simp only [Prod.mk.injEq] at hfields
    obtain ⟨hsuite, hname, hpassed, hlength⟩ := hfields
    have hsplit := (List.dropLast_append_getLast? result hresult).symm
    obtain ⟨shown, hnamed, _, hstatus, hnodes, _⟩ := hshown _ result [] heading hsplit
      (by rw [hsuite, hname]; exact hheading) (List.forall_mem_nil _)
    rw [hsuite, hname] at hnamed
    rw [hpassed] at hstatus
    exact ⟨outcome, shown, hreconcile, hsummary.trans htally, hnamed, hnodes.trans hlength, hstatus⟩

end Session

end SuiteAtlas
