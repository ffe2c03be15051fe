import SuiteAtlas.Proofs.Runner.Selection
import SuiteAtlas.Proofs.Session.Agreement
import SuiteAtlas.Proofs.Session.Fallback
import SuiteAtlas.Proofs.Session.Skeleton

namespace SuiteAtlas

namespace Session

open Reconciliation (applyResult)

/-- The headings of a session, as far as other operations ask for them. -/
structure KeepsHeadings (s s' : Session) : Prop where
  roots : s'.hierarchy.roots = s.hierarchy.roots
  skeletons : s'.hierarchy.rootTrees.map Tree.skeleton = s.hierarchy.rootTrees.map Tree.skeleton
  headings : s'.headings.map Tree.face = s.headings.map Tree.face
  countTags : s'.countTags = s.countTags
  headingNamed? : ∀ suite name,
    (s'.headingNamed? suite name).map Tree.face = (s.headingNamed? suite name).map Tree.face
  select : ∀ request : Request,
    (∀ keys, request.targets = some keys → ∀ key ∈ keys, (s.hierarchy.node? key).isSome) →
      (s'.select request).map Tree.face = (s.select request).map Tree.face

/-- The session after an output. An output that stops the reconciliation leaves it as it is. -/
def reconciled (s : Session) (nesting : Nat) (files : Files) (output : List Char) (run : Run) :
    Session :=
  match s.reconcile nesting files output run with
  | .ok outcome => outcome.session
  | .error _ => s

variable {s s' : Session} {files : Files} {report : Report} {result : ReportedTest}
  {results : List ReportedTest} {key : Key}

theorem map_face_headings (s : Session) :
    s.headings.map Tree.face = s.hierarchy.index.flatMap Prod.snd := by
  rw [headings, Hierarchy.headings, List.map_flatMap, Hierarchy.index, List.flatMap_map]
  rfl

theorem countTags_eq_of_faces (h : s'.headings.map Tree.face = s.headings.map Tree.face) :
    s'.countTags = s.countTags := by
  have htags (s : Session) : (s.headings.flatMap fun heading => heading.content.tags) =
      (s.headings.map Tree.face).flatMap fun face => face.2.tags := by
    rw [List.flatMap_map]
    rfl
  rw [countTags, countTags, htags, htags, h]

theorem map_face_tagged (request : Request) (ts : List Tree) :
    (request.tagged ts).map Tree.face = match request.tag with
      | none => ts.map Tree.face
      | some tag => (ts.map Tree.face).filter fun face => face.2.tags.contains tag := by
  rw [Request.tagged]
  cases request.tag with
  | none => rfl
  | some tag =>
    change _ = (ts.map Tree.face).filter fun face => face.2.tags.contains tag
    rw [List.filter_map]
    rfl

theorem map_face_select (s : Session) (request : Request) :
    (s.select request).map Tree.face = firsts (fun face => Target.ofNode face.2)
      ((request.tagged (s.chosen request)).map Tree.face) :=
  map_firsts (fun face : Key × Node => Target.ofNode face.2) Tree.face _

theorem map_face_testsOf {node : Node} (hnode : s.hierarchy.node? key = some node) :
    (s.testsOf key).map Tree.face =
      if node.isFile then ((s.hierarchy.tree? key).map Tree.faces).getD []
      else ((s.hierarchy.tree? (s.hierarchy.enclosingTest key)).map Tree.face).toList := by
  rw [testsOf, hnode]
  change List.map Tree.face (if node.isFile then _ else _) = _
  split
  · cases s.hierarchy.tree? key <;> rfl
  · cases s.hierarchy.tree? (s.hierarchy.enclosingTest key) <;> rfl

section Keeps

variable (hkeeps : s.hierarchy.Keeps s'.hierarchy) (ha : s.hierarchy.Ascends)
  (ha' : s'.hierarchy.Ascends)

include hkeeps ha ha'

theorem map_face_testsOf_eq (hkey : (s.hierarchy.node? key).isSome) :
    (s'.testsOf key).map Tree.face = (s.testsOf key).map Tree.face := by
  obtain ⟨node, hnode⟩ := Option.isSome_iff_exists.1 hkey
  have hlt := Hierarchy.node?_lt hnode
  have hface := hkeeps.face?_eq key hlt
  rw [Hierarchy.face?, Hierarchy.face?, hnode, Option.map_some, Option.map_eq_some_iff] at hface
  obtain ⟨node', hnode', hsame⟩ := hface
  have hfile : (node'.withChildren []).isFile = (node.withChildren []).isFile := by rw [hsame]
  change node'.isFile = node.isFile at hfile
  have hle := Nat.lt_of_le_of_lt (ha.climb_le s.hierarchy.nodes.size key) hlt
  rw [map_face_testsOf hnode, map_face_testsOf hnode', hfile, hkeeps.map_faces_tree? ha ha' hlt,
    hkeeps.enclosingTest_eq ha hlt, Hierarchy.enclosingTest, hkeeps.map_face_tree? ha ha' hle]

theorem map_face_select_eq (hheadings : s'.headings.map Tree.face = s.headings.map Tree.face)
    {request : Request}
    (hkeys : ∀ keys, request.targets = some keys → ∀ key ∈ keys, (s.hierarchy.node? key).isSome) :
    (s'.select request).map Tree.face = (s.select request).map Tree.face := by
  have hchosen : (s'.chosen request).map Tree.face = (s.chosen request).map Tree.face := by
    rw [chosen, chosen]
    cases htargets : request.targets with
    | none => exact hheadings
    | some keys =>
      change (keys.flatMap s'.testsOf).map Tree.face = (keys.flatMap s.testsOf).map Tree.face
      rw [List.map_flatMap, List.map_flatMap]
      exact List.flatMap_congr fun key hkey =>
        map_face_testsOf_eq hkeeps ha ha' (hkeys keys htargets key hkey)
  rw [map_face_select, map_face_select, map_face_tagged, map_face_tagged, hchosen]

end Keeps

/-- A result changes the children of its heading and no other node, and takes one stamp. -/
theorem step_frame {state : Reconciliation.State} (hs : state.session.HoldsFiles)
    (ha : state.session.hierarchy.Ascends) (files : Files) (report : Report)
    (result : ReportedTest) :
    let named := state.session.headingNamed? result.suite result.name
    let s' := (Reconciliation.step files report state result).session
    state.session.hierarchy.Keeps s'.hierarchy ∧
      (∀ k < state.session.hierarchy.nodes.size, named.map Tree.key ≠ some k →
        s'.hierarchy.node? k = state.session.hierarchy.node? k) ∧
      s'.stamp = state.session.stamp + named.toList.length := by
  intro named s'
  cases hheading : named with
  | none =>
    have he : s' = state.session := by
      change (Reconciliation.step files report state result).session = _
      rw [Reconciliation.step, show state.session.headingNamed? _ _ = none from hheading]
      rfl
    rw [he]
    exact ⟨.refl _, fun _ _ _ => rfl, (Int.add_zero _).symm⟩
  | some heading =>
    have he : s' = (applyResult files report state heading result).session := by
      change (Reconciliation.step files report state result).session = _
      rw [Reconciliation.step, show state.session.headingNamed? _ _ = some heading from hheading]
    rw [he]
    obtain ⟨ts, hts⟩ := hs
    obtain ⟨t, ht, hmem, hh⟩ := headingNamed?_spec hts hheading
    have hnodes (previous : List Node) (n : Node)
        (hn : n ∈ Reconciliation.resultNodes heading.content (state.session.stamp + 1)
          (Reconciliation.sourceOf files state.sources heading.content.file).1 0 previous
          result.assertions) :=
      Reconciliation.isAssertionOf_of_mem_resultNodes hn
    have hids := Reconciliation.nodup_ids_resultNodes heading.content (state.session.stamp + 1)
      (Reconciliation.sourceOf files state.sources heading.content.file).1 0
    refine ⟨hts.keeps_replaceAssertions ht hmem hh (hnodes _) (hids _ _) ha, ?_, rfl⟩
    intro k hlt hne
    rw [Option.map_some, ne_eq, Option.some.injEq] at hne
    exact hts.node?_replaceAssertions_of_ne ht hmem hh (hnodes _) (hids _ _) hlt (Ne.symm hne)

/-- What the results of a report that were taken so far have left as it was. -/
structure Frames (s : Session) (results : List ReportedTest) (s' : Session) : Prop where
  holdsFiles : s'.HoldsFiles
  ascends : s'.hierarchy.Ascends
  index : s'.hierarchy.index = s.hierarchy.index
  keeps : s.hierarchy.Keeps s'.hierarchy
  node? : ∀ k < s.hierarchy.nodes.size,
    (∀ result ∈ results,
      (s.hierarchy.named? result.suite result.name).map Prod.fst ≠ some k) →
    s'.hierarchy.node? k = s.hierarchy.node? k
  stamp : s'.stamp = s.stamp + results.countP s.knows

theorem Frames.nil (h : s.HoldsFiles) (ha : s.hierarchy.Ascends) : s.Frames [] s :=
  ⟨h, ha, rfl, .refl _, fun _ _ _ => rfl, (Int.add_zero _).symm⟩

theorem Frames.step {state : Reconciliation.State} (h : s.Frames results state.session)
    (files : Files) (report : Report) (result : ReportedTest) :
    s.Frames (results ++ [result]) (Reconciliation.step files report state result).session := by
  have hchange : Change state.session _ := .result files report result rfl
  have hindex := (Reconciliation.step_index h.holdsFiles files report result).trans h.index
  have hholds := h.holdsFiles.of_change hchange
  have hascends := hchange.ascends h.holdsFiles h.ascends
  have hnamed : (state.session.headingNamed? result.suite result.name).map Tree.face =
      s.hierarchy.named? result.suite result.name := by
    rw [map_face_headingNamed?, Hierarchy.named?_of_index_eq h.index]
  obtain ⟨hkeeps, hnode, hstamp⟩ := step_frame h.holdsFiles h.ascends files report result
  refine ⟨hholds, hascends, hindex, h.keeps.trans hkeeps, fun k hlt hmissed => ?_, ?_⟩
  · rw [List.forall_mem_append, List.forall_mem_singleton] at hmissed
    rw [hnode k (Nat.lt_of_lt_of_le hlt h.keeps.size_le), h.node? k hlt hmissed.1]
    have hother := hmissed.2
    rw [← hnamed, Option.map_map] at hother
    exact hother
  · have hknows : [result].countP s.knows =
        (state.session.headingNamed? result.suite result.name).toList.length := by
      rw [List.countP_singleton, knows_eq, ← hnamed, Option.isSome_map]
      cases state.session.headingNamed? result.suite result.name <;> rfl
    rw [hstamp, h.stamp, List.countP_append, hknows, Int.natCast_add, Int.add_assoc]

theorem frames_foldl (h : s.HoldsFiles) (ha : s.hierarchy.Ascends) (files : Files)
    (report : Report) (run : Run) (results : List ReportedTest) :
    s.Frames results (results.foldl (Reconciliation.step files report)
      { session := s, run, summary := {}, sources := [] }).session := by
  induction results using List.reverseRecOn with
  | nil => exact .nil h ha
  | append_singleton results result ih =>
    rw [List.foldl_append]
    exact ih.step files report result

theorem Reachable.frames_reconciled (h : s.Reachable) (nesting : Nat) (files : Files)
    (output : List Char) (run : Run) :
    s.Frames (Report.resultsIn nesting output) (s.reconciled nesting files output run) := by
  rw [reconciled, Report.resultsIn]
  cases hload : Report.load nesting output with
  | ok found =>
    rw [reconcile_of_load files run hload]
    exact frames_foldl h.holdsFiles h.ascends files found.2 _ found.2.testResults
  | error failure =>
    rw [reconcile, hload]
    cases failure <;> exact .nil h.holdsFiles h.ascends

theorem Frames.keepsHeadings (h : s.Frames results s') (hs : s.HoldsFiles)
    (ha : s.hierarchy.Ascends) : s.KeepsHeadings s' := by
  obtain ⟨ts, hts⟩ := hs
  have hheadings : s'.headings.map Tree.face = s.headings.map Tree.face := by
    rw [map_face_headings, map_face_headings, h.index]
  exact {
    roots := h.keeps.roots
    skeletons := h.keeps.map_skeleton_rootTrees ha h.ascends hts.holds
    headings := hheadings
    countTags := countTags_eq_of_faces hheadings
    headingNamed? := fun suite name => by
      rw [map_face_headingNamed?, map_face_headingNamed?, Hierarchy.named?_of_index_eq h.index]
    select := fun _ hkeys => map_face_select_eq h.keeps ha h.ascends hheadings hkeys }

/-- An output changes nothing but the assertions of headings that its results have. -/
theorem Reachable.reconciled_frame (h : s.Reachable) (nesting : Nat) (files : Files)
    (output : List Char) (run : Run) :
    s.KeepsHeadings (s.reconciled nesting files output run) ∧
      (∀ key node, s.hierarchy.node? key = some node →
        (∀ result ∈ Report.resultsIn nesting output,
          (s.headingNamed? result.suite result.name).map Tree.key ≠ some key) →
        (s.reconciled nesting files output run).hierarchy.node? key = some node) ∧
      (s.reconciled nesting files output run).stamp =
        s.stamp + (Report.resultsIn nesting output).countP s.knows := by
  have hframes := h.frames_reconciled nesting files output run
  refine ⟨hframes.keepsHeadings h.holdsFiles h.ascends, fun key node hnode hmissed => ?_,
    hframes.stamp⟩
  rw [hframes.node? key (Hierarchy.node?_lt hnode), hnode]
  intro result hresult
  rw [← map_face_headingNamed?, Option.map_map]
  exact hmissed result hresult

/-- A report that names the outer test twice leaves the inner one, whose key is 3, as it was. -/
theorem Reachable.reconciled_frame_twiceText :
    let s := (oneFile.plantText 0 nestedText none).2
    let s' := s.reconciled 993 (.empty ⟨"/", []⟩) twiceText {}
    s.KeepsHeadings s' ∧ s.headings.map Tree.key = [1, 3] ∧
      s'.hierarchy.node? 3 = s.hierarchy.node? 3 ∧ s'.stamp = s.stamp + 2 := by
  intro s s'
  obtain ⟨hkeeps, hnode, hstamp⟩ :=
    Reachable.reconciled_frame reachable_nestedText 993 (.empty ⟨"/", []⟩) twiceText {}
  have hfacts : (s.headings.map Tree.key, (s.hierarchy.node? 3).isSome,
      (Report.resultsIn 993 twiceText).countP s.knows,
      (Report.resultsIn 993 twiceText).all fun result =>
        (s.headingNamed? result.suite result.name).map Tree.key != some 3) =
      ([1, 3], true, 2, true) := by decide +kernel
  simp only [Prod.mk.injEq, List.all_eq_true, bne_iff_ne, Option.isSome_iff_exists] at hfacts
  obtain ⟨hkeys, ⟨node, hthree⟩, hcount, hmissed⟩ := hfacts
  refine ⟨hkeeps, hkeys, (hnode 3 node hthree hmissed).trans hthree.symm, ?_⟩
  exact hstamp.trans (congrArg (fun n : Nat => s.stamp + n) hcount)

end Session

end SuiteAtlas
