import SuiteAtlas.Proofs.Session.Account
import SuiteAtlas.Proofs.Session.Frame
import SuiteAtlas.Proofs.Session.Settling

namespace SuiteAtlas

open Reconciliation (splitChildren splitChildren_spec map_content_splitChildren)

namespace Tree

/-- The tree that a skeleton stands for, if the headings have the assertions of a table. -/
def dress (table : Key → List Node) : Tree → Tree
  | .node key content children =>
    .node 0 content.unstamped
      ((if content.isHeading then (table key).map fun n => .node 0 n [] else []) ++
        children.map (dress table))

variable {t a : Tree} {heading root : Node} {table : Key → List Node}

theorem IsAssertionOf.unstamped_eq (h : a.IsAssertionOf heading) :
    a.unstamped = .node 0 a.content.unstamped [] := by
  rw [Tree.unstamped_eq, h.children, List.map_nil]

theorem filter_skeleton_append {own nested : List Tree} (hown : ∀ a ∈ own, a.isAssertion = true)
    (hnested : ∀ s ∈ nested, s.isHeading = true) :
    ((own ++ nested).map skeleton).filter isHeading = nested.map skeleton := by
  have hsame : isHeading ∘ skeleton = isHeading := funext isHeading_skeleton
  rw [List.filter_map, hsame, filter_isHeading_append hown hnested]

theorem mem_headings_of_child {c s : Tree} (hc : c ∈ t.children) (hheading : c.isHeading = true)
    (hs : s ∈ c :: c.headings) : s ∈ t.headings := by
  rw [headings_eq, List.mem_flatMap]
  refine ⟨c, hc, ?_⟩
  rwa [if_pos hheading]

/-- Keys and stamps apart, a heading is its skeleton together with the assertions that it has and
those that the headings below it have. -/
theorem unstamped_eq_dress (hof : ∀ s ∈ t :: t.headings, s.IsHeadingOf root)
    (htable : ∀ s ∈ t :: t.headings, table s.key = s.assertions.map Node.unstamped) :
    t.unstamped = t.skeleton.dress table := by
  induction t using induct with
  | node key content children ih =>
    have hnested (s : Tree) (hs : s ∈ children) (hh : s.isHeading = true) :
        s.unstamped = s.skeleton.dress table :=
      ih s hs (fun r hr => hof r (List.mem_cons_of_mem _ (mem_headings_of_child hs hh hr)))
        (fun r hr => htable r (List.mem_cons_of_mem _ (mem_headings_of_child hs hh hr)))
    have hheading : content.isHeading = true := (hof _ List.mem_cons_self).isHeading
    obtain ⟨hsplit, hown, hheadings⟩ := splitChildren_spec (hof _ List.mem_cons_self)
    have hself := htable _ List.mem_cons_self
    rw [← map_content_splitChildren, List.map_map] at hself
    change table key = _ at hself
    change children = _ at hsplit
    rw [unstamped, skeleton, dress]
    change Tree.node 0 content.unstamped _ = .node 0 content.unstamped
      ((if content.isHeading = true then _ else _) ++ _)
    rw [if_pos hheading, hself, List.map_map]
    generalize splitChildren (.node key content children) = split at *
    subst hsplit
    rw [filter_skeleton_append (fun a ha => (hown a ha).isAssertion) hheadings, List.map_append,
      List.map_map]
    congr 2
    · exact List.map_congr_left fun a ha => (hown a ha).unstamped_eq
    · exact List.map_congr_left fun c hc =>
        hnested c (List.mem_append_right _ hc) (hheadings c hc)

theorem IsTestFile.unstamped_eq_dress (h : t.IsTestFile)
    (htable : ∀ s ∈ t.headings, table s.key = s.assertions.map Node.unstamped) :
    t.unstamped = t.skeleton.dress table := by
  cases t with
  | node key content children =>
    have hself : content.isHeading = false := not_isHeading_of_isFile h.isFile
    have hall : ∀ c ∈ children, c.isHeading = true := h.isHeading_of_mem
    have hnone : ∀ a ∈ ([] : List Tree), a.isAssertion = true := List.forall_mem_nil _
    have hkept : (children.map skeleton).filter isHeading = children.map skeleton :=
      filter_skeleton_append hnone hall
    rw [unstamped, skeleton, dress, hkept, List.map_map]
    change Tree.node 0 content.unstamped _ = .node 0 content.unstamped
      ((if content.isHeading = true then _ else _) ++ _)
    rw [hself, if_neg Bool.false_ne_true, List.nil_append]
    congr 1
    apply List.map_congr_left
    intro c hc
    have hin (s : Tree) (hs : s ∈ c :: c.headings) : s ∈ (node key content children).headings :=
      mem_headings_of_child hc (hall c hc) hs
    have hof (s : Tree) (hs : s ∈ c :: c.headings) : s.IsHeadingOf content :=
      h.isHeadingOf_of_mem s (of_mem_headings (hin s hs)).1 (of_mem_headings (hin s hs)).2
    exact Tree.unstamped_eq_dress hof fun s hs => htable s (hin s hs)

end Tree

theorem Hierarchy.HoldsFiles.map_unstamped_rootTrees {h h' : Hierarchy} {ts ts' : List Tree}
    (hts : h.HoldsFiles ts) (hts' : h'.HoldsFiles ts')
    (hskeletons : h'.rootTrees.map Tree.skeleton = h.rootTrees.map Tree.skeleton)
    (hassertions : ∀ key ∈ h.headingKeys,
      (h'.assertionsAt key).map Node.unstamped = (h.assertionsAt key).map Node.unstamped) :
    h'.rootTrees.map Tree.unstamped = h.rootTrees.map Tree.unstamped := by
  have hdress {h₁ : Hierarchy} {us : List Tree} (hus : h₁.HoldsFiles us)
      (htable : ∀ key ∈ h₁.headingKeys,
        (h'.assertionsAt key).map Node.unstamped = (h₁.assertionsAt key).map Node.unstamped) :
      h₁.rootTrees.map Tree.unstamped = (h₁.rootTrees.map Tree.skeleton).map
        (Tree.dress fun key => (h'.assertionsAt key).map Node.unstamped) := by
    rw [List.map_map]
    apply List.map_congr_left
    intro t ht
    have hkey (s : Tree) (hs : s ∈ t.headings) : s.key ∈ h₁.headingKeys :=
      mem_headingKeys.2 ⟨t, ht, s, hs, rfl⟩
    rw [hus.holds.rootTrees_eq] at ht
    apply (hus.isTestFile t ht).unstamped_eq_dress
    intro s hs
    rw [htable s.key (hkey s hs), hus.holds.assertionsAt_eq ht (Tree.of_mem_headings hs).1]
  rw [hdress hts' fun _ _ => rfl, hskeletons]
  exact (hdress hts hassertions).symm

namespace Session

open Reconciliation

def entriesOf (s : Session) (report : Report) (result : ReportedTest) : List RunEntry :=
  if s.knows result then (s.eventsOf report result).map RunEntry.event
  else (s.missed [result]).map fun diagnostic => .text (diagnostic ++ "\n")

variable {s s' : Session} {nesting : Nat} {files : Files} {report : Report} {output : List Char}
  {run : Run} {outcome : Reconciled}

section Index

variable (hindex : s'.hierarchy.index = s.hierarchy.index)

include hindex

theorem knows_of_index_eq : s'.knows = s.knows := by
  funext result
  rw [knows_eq, knows_eq, Hierarchy.named?_of_index_eq hindex]

theorem missed_of_index_eq (results : List ReportedTest) :
    s'.missed results = s.missed results := by
  rw [missed, missed, knows_of_index_eq hindex]

theorem tally_of_index_eq (results : List ReportedTest) : s'.tally results = s.tally results := by
  rw [tally, tally, knows_of_index_eq hindex, missed_of_index_eq hindex]

theorem entriesOf_of_index_eq : s'.entriesOf report = s.entriesOf report := by
  funext result
  rw [entriesOf, entriesOf, knows_of_index_eq hindex, missed_of_index_eq hindex, eventsOf_eq,
    eventsOf_eq, Hierarchy.named?_of_index_eq hindex]

end Index

theorem step_log (state : State) (files : Files) (report : Report) (result : ReportedTest) :
    (Reconciliation.step files report state result).run.log =
      state.run.log ++ state.session.entriesOf report result := by
  rw [Reconciliation.step]
  cases hheading : state.session.headingNamed? result.suite result.name with
  | none =>
    have hknows : state.session.knows result = false := by rw [knows, hheading]; rfl
    rw [entriesOf, if_neg (by rw [hknows]; exact Bool.false_ne_true), missed,
      List.filter_singleton, hknows]
    rfl
  | some heading =>
    have hknows : state.session.knows result = true := by rw [knows, hheading]; rfl
    rw [entriesOf, if_pos hknows, eventsOf, hheading]
    exact applyResult_log files report state heading result

theorem foldl_step_log (hs : s.HoldsFiles) (files : Files) (report : Report) (run : Run)
    (results : List ReportedTest) :
    (results.foldl (Reconciliation.step files report)
        { session := s, run, summary := {}, sources := [] }).run.log =
      run.log ++ results.flatMap (s.entriesOf report) := by
  induction results using List.reverseRecOn with
  | nil => exact (List.append_nil _).symm
  | append_singleton results result ih =>
    have hindex := (settled_foldl hs files report run results).index
    rw [List.foldl_append, List.foldl_cons, List.foldl_nil, step_log, ih,
      entriesOf_of_index_eq hindex, List.flatMap_append, List.flatMap_singleton, List.append_assoc]

theorem reconcile_place (hs : s.HoldsFiles)
    (hok : s.reconcile nesting files output run = .ok outcome) {key : Key}
    (hkey : key ∈ s.hierarchy.headingKeys) (place : Nat) :
    (outcome.session.hierarchy.assertionsAt key)[place]?.map Node.unstamped =
      (Report.resultsIn nesting output).foldl (placeAfter files s.hierarchy key place)
        ((s.hierarchy.assertionsAt key)[place]?.map Node.unstamped) := by
  rw [Report.resultsIn]
  rcases reconcile_cases hok with ⟨value, report, hload, rfl⟩ | ⟨error, hload, rfl⟩
  · rw [hload]
    exact (settled_foldl hs files report _ report.testResults).place key hkey place
  · rw [hload]
    rfl

theorem map_unstamped_assertionsAt_again {first second : Reconciled} {run' : Run}
    (hs : s.HoldsFiles) (hfirst : s.reconcile nesting files output run = .ok first)
    (hsecond : first.session.reconcile nesting files output run' = .ok second) {key : Key}
    (hkey : key ∈ s.hierarchy.headingKeys) :
    (second.session.hierarchy.assertionsAt key).map Node.unstamped =
      (first.session.hierarchy.assertionsAt key).map Node.unstamped := by
  have hindex := reconcile_index hs hfirst
  have hkey' : key ∈ first.session.hierarchy.headingKeys := by
    rwa [Hierarchy.headingKeys, hindex]
  apply List.ext_getElem?
  intro place
  rw [List.getElem?_map, List.getElem?_map, reconcile_place (hs.reconcile hfirst) hsecond hkey',
    placeAfter_of_index_eq hindex, reconcile_place hs hfirst hkey, foldl_placeAfter_twice]

theorem exists_reconcile_of_load {value : Json} (hs : s.HoldsFiles) (files : Files) (run : Run)
    (hload : Report.load nesting output = .ok (value, report)) :
    ∃ outcome, s.reconcile nesting files output run = .ok outcome ∧
      outcome.summary = s.tally report.testResults ∧
      outcome.run.log = run.log ++
        .text (Report.echo value) :: report.testResults.flatMap (s.entriesOf report) := by
  refine ⟨_, reconcile_of_load files run hload, ?_, ?_⟩
  · exact (accounts_foldl hs files report (run.print (Report.echo value)) _).summary
  · refine (foldl_step_log hs files report (run.print (Report.echo value)) _).trans ?_
    rw [Run.print, Run.add, List.append_assoc, List.singleton_append]

/-- Summary and record of an output depend on the index only. -/
theorem exists_reconcile_again {first : Reconciled} (hs : s.HoldsFiles) (hs' : s'.HoldsFiles)
    (hindex : s'.hierarchy.index = s.hierarchy.index)
    (hfirst : s.reconcile nesting files output run = .ok first) (run' : Run) :
    ∃ second, s'.reconcile nesting files output run' = .ok second ∧
      second.summary = first.summary ∧
      ∃ entries, first.run.log = run.log ++ entries ∧ second.run.log = run'.log ++ entries := by
  cases hload : Report.load nesting output with
  | ok found =>
    obtain ⟨value, report⟩ := found
    obtain ⟨outcome, hok, hsummary, hlog⟩ := exists_reconcile_of_load hs files run hload
    obtain ⟨second, hsecond, hsummary', hlog'⟩ := exists_reconcile_of_load hs' files run' hload
    obtain rfl := Except.ok.inj (hfirst.symm.trans hok)
    rw [entriesOf_of_index_eq hindex] at hlog'
    refine ⟨second, hsecond, ?_, _, hlog, hlog'⟩
    rw [hsummary', hsummary, tally_of_index_eq hindex]
  | error failure =>
    rw [reconcile, hload] at hfirst
    cases failure with
    | unusable error =>
      cases hfirst
      exact ⟨⟨_, s', _⟩, by rw [reconcile, hload]; rfl, rfl, _, rfl, rfl⟩
    | _ => cases hfirst

/-- Reconciling an output again, the files being as they were, gives the same summary, adds the
same events and texts to the record, and leaves the same hierarchy, keys and stamps apart. -/
theorem Reachable.reconcile_again {first : Reconciled} (h : s.Reachable)
    (hfirst : s.reconcile nesting files output run = .ok first) (run' : Run) :
    ∃ second, first.session.reconcile nesting files output run' = .ok second ∧
      second.summary = first.summary ∧
      (∃ entries, first.run.log = run.log ++ entries ∧ second.run.log = run'.log ++ entries) ∧
      second.session.hierarchy.rootTrees.map Tree.unstamped =
        first.session.hierarchy.rootTrees.map Tree.unstamped := by
  have hreach : first.session.Reachable := .step h (.reconcile hfirst)
  have hindex := reconcile_index h.holdsFiles hfirst
  obtain ⟨second, hsecond, hsummary, hrecord⟩ :=
    exists_reconcile_again h.holdsFiles hreach.holdsFiles hindex hfirst run'
  refine ⟨second, hsecond, hsummary, hrecord, ?_⟩
  have hframes := hreach.frames_reconciled nesting files output run'
  rw [reconciled, hsecond] at hframes
  obtain ⟨ts, hts⟩ := hreach.holdsFiles
  obtain ⟨ts', hts'⟩ := hframes.holdsFiles
  apply hts.map_unstamped_rootTrees hts'
    (hframes.keeps.map_skeleton_rootTrees hreach.ascends hframes.ascends hts.holds)
  intro key hkey
  rw [Hierarchy.headingKeys, hindex] at hkey
  exact map_unstamped_assertionsAt_again h.holdsFiles hfirst hsecond hkey

/-- A report that lists one test three times, with three, one and two assertions, of which the last
one names a line. -/
def variedText : List Char :=
  ("\x7b\"testResults\": [" ++
    "\x7b\"suite\": \"T\", \"name\": \"test_outer\", " ++
      "\"assertions\": [\x7b\x7d, \x7b\x7d, \x7b\x7d]\x7d, " ++
    "\x7b\"suite\": \"T\", \"name\": \"test_outer\", \"assertions\": [\x7b\x7d]\x7d, " ++
    "\x7b\"suite\": \"T\", \"name\": \"test_outer\", \"assertions\": [\x7b\x7d, " ++
      "\x7b\"line\": 1, \"functionName\": \"test_outer\"\x7d]\x7d]\x7d").toList

def nestedFile : Files :=
  (Files.empty ⟨"/", []⟩).write ⟨"/", ["T.4dm"]⟩ (Text.Utf8.encode nestedText)

theorem Reachable.reconcile_again_variedText :
    let s := (oneFile.plantText 0 nestedText none).2
    ∃ first second, s.reconcile 993 nestedFile variedText {} = .ok first ∧
      first.session.reconcile 993 nestedFile variedText {} = .ok second ∧
      second.summary = first.summary ∧ second.run.log = first.run.log ∧
      second.session.hierarchy.rootTrees.map Tree.unstamped =
        first.session.hierarchy.rootTrees.map Tree.unstamped ∧
      (first.session.headingNamed? "T" "test_outer").map
          (fun t => (t.assertions.length, anchorAt t.assertions 0, anchorAt t.assertions 1)) =
        some (2, (some (.ofPoints 2 1 3 14), "areEqual"), some (.atLine 3), "") := by
  intro s
  have hshown : (s.reconcile 993 nestedFile variedText {}).toOption.map (fun first =>
      (first.session.headingNamed? "T" "test_outer").map
        (fun t => (t.assertions.length, anchorAt t.assertions 0, anchorAt t.assertions 1))) =
      some (some (2, (some (.ofPoints 2 1 3 14), "areEqual"), some (.atLine 3), "")) := by
    decide +kernel
  cases hfirst : s.reconcile 993 nestedFile variedText {} with
  | error failure =>
    rw [hfirst] at hshown
    cases hshown
  | ok first =>
    rw [hfirst] at hshown
    obtain ⟨second, hsecond, hsummary, ⟨entries, hlog, hlog'⟩, htrees⟩ :=
      Reachable.reconcile_again reachable_nestedText hfirst {}
    exact ⟨first, second, rfl, hsecond, hsummary, hlog'.trans hlog.symm, htrees,
      Option.some.inj hshown⟩

end Session

end SuiteAtlas
