import Mathlib.Data.List.Find
import SuiteAtlas.Proofs.Firsts
import SuiteAtlas.Proofs.Session.Account
import SuiteAtlas.Runner.Selection

namespace SuiteAtlas

def ReportedTest.target (result : ReportedTest) : Target :=
  ⟨result.suite, result.name⟩

namespace Tree

def target (t : Tree) : Target :=
  Target.ofNode t.content

variable {t : Tree}

theorem headings_sublist (t : Tree) : t.headings.Sublist (t.children.flatMap subtrees) := by
  induction t using induct with
  | node key content children ih =>
    rw [headings_eq]
    apply List.Sublist.flatMap_right
    intro c hc
    rw [subtrees_eq]
    split
    · exact (ih c hc).cons_cons c
    · exact List.nil_sublist _

theorem map_key_headings_sublist (t : Tree) : (t.headings.map key).Sublist t.keys := by
  rw [keys_eq_map_subtrees, subtrees_eq, List.map_cons]
  exact (t.headings_sublist.map key).cons _

end Tree

theorem Hierarchy.node?_of_mem_treeAt {h : Hierarchy} {depth : Nat} {key : Key} {t r : Tree}
    (ht : h.treeAt depth key = some t) (hr : r ∈ t.subtrees) :
    h.node? r.key = some r.content := by
  induction depth generalizing key t with
  | zero => cases ht
  | succ depth ih =>
    rw [treeAt, Option.map_eq_some_iff] at ht
    obtain ⟨node, hnode, rfl⟩ := ht
    rcases Tree.mem_subtrees_iff.1 hr with rfl | ⟨c, hc, hr⟩
    · exact hnode
    · obtain ⟨k, _, hk⟩ := List.mem_filterMap.1 hc
      exact ih hk hr

def Request.tagged (request : Request) (ts : List Tree) : List Tree :=
  match request.tag with
  | none => ts
  | some tag => ts.filter fun t => t.content.tags.contains tag

theorem Request.mem_of_mem_tagged {request : Request} {ts : List Tree} {t : Tree}
    (ht : t ∈ request.tagged ts) : t ∈ ts := by
  rw [tagged] at ht
  split at ht
  · exact ht
  · exact List.mem_of_mem_filter ht

namespace Session

variable {s : Session} {request : Request} {suite name : String} {t : Tree} {key : Key}

/-- The tests that are chosen before the tag is looked at. -/
def chosen (s : Session) (request : Request) : List Tree :=
  match request.targets with
  | none => s.headings
  | some keys => keys.flatMap s.testsOf

theorem select_eq (s : Session) (request : Request) :
    s.select request = firsts Tree.target (request.tagged (s.chosen request)) := rfl

theorem node?_of_mem_headings (ht : t ∈ s.headings) :
    s.hierarchy.node? t.key = some t.content := by
  obtain ⟨root, hroot, ht⟩ := List.mem_flatMap.1 ht
  obtain ⟨key, _, hkey⟩ := List.mem_filterMap.1 hroot
  exact Hierarchy.node?_of_mem_treeAt hkey (Tree.of_mem_headings ht).1

theorem node?_of_mem_testsOf (ht : t ∈ s.testsOf key) :
    s.hierarchy.node? t.key = some t.content := by
  rw [testsOf] at ht
  split at ht
  next node _ =>
    split at ht
    · cases hroot : s.hierarchy.tree? key with
      | none =>
        rw [hroot] at ht
        cases ht
      | some root =>
        rw [hroot] at ht
        exact Hierarchy.node?_of_mem_treeAt hroot (Tree.of_mem_headings ht).1
    · exact Hierarchy.node?_of_mem_treeAt (Option.mem_toList.1 ht) t.mem_subtrees_self
  next => cases ht

theorem node?_of_mem_select (ht : t ∈ s.select request) :
    s.hierarchy.node? t.key = some t.content := by
  rw [select_eq] at ht
  have hchosen := Request.mem_of_mem_tagged ((firsts_sublist Tree.target _).subset ht)
  rw [chosen] at hchosen
  split at hchosen
  · exact node?_of_mem_headings hchosen
  · obtain ⟨key, _, ht⟩ := List.mem_flatMap.1 hchosen
    exact node?_of_mem_testsOf ht

theorem nodup_targets_select (s : Session) (request : Request) :
    ((s.select request).map Tree.target).Nodup :=
  nodup_map_firsts _ _

/-- No node is selected twice, as its target is told by its key. -/
theorem nodup_keys_select (s : Session) (request : Request) :
    ((s.select request).map Tree.key).Nodup := by
  apply List.Nodup.of_map fun key => (s.hierarchy.node? key).map Target.ofNode
  have he : ((s.select request).map Tree.key).map
      (fun key => (s.hierarchy.node? key).map Target.ofNode) =
        ((s.select request).map Tree.target).map some := by
    rw [List.map_map, List.map_map]
    apply List.map_congr_left
    intro t ht
    rw [Function.comp_apply, node?_of_mem_select ht]
    rfl
  rw [he]
  exact (s.nodup_targets_select request).map fun _ _ => Option.some.inj

theorem HoldsFiles.nodup_keys_headings (h : s.HoldsFiles) : (s.headings.map Tree.key).Nodup := by
  obtain ⟨ts, hts⟩ := h
  rw [headings, Hierarchy.headings, hts.holds.rootTrees_eq, List.map_flatMap]
  exact hts.holds.nodup.sublist
    (List.Sublist.flatMap_right ts fun t _ => t.map_key_headings_sublist)

theorem HoldsFiles.isHeadingOf {root heading : Tree} (h : s.HoldsFiles)
    (hroot : root ∈ s.hierarchy.rootTrees) (hheading : heading ∈ root.headings) :
    heading.IsHeadingOf root.content := by
  obtain ⟨ts, hts⟩ := h
  rw [hts.holds.rootTrees_eq] at hroot
  obtain ⟨hmem, hh⟩ := Tree.of_mem_headings hheading
  exact (hts.isTestFile root hroot).isHeadingOf_of_mem heading hmem hh

theorem HoldsFiles.suite_eq {root heading : Tree} (h : s.HoldsFiles)
    (hroot : root ∈ s.hierarchy.rootTrees) (hheading : heading ∈ root.headings) :
    heading.content.suite = root.content.suite :=
  (h.isHeadingOf hroot hheading).suite_eq

theorem target_beq_iff {t : Tree} :
    (t.target == ⟨suite, name⟩) = (t.content.suite == suite && t.content.label == name) := by
  rw [Bool.eq_iff_iff, Bool.and_eq_true, beq_iff_eq, beq_iff_eq, beq_iff_eq]
  exact Target.mk.injEq .. ▸ Iff.rfl

/-- Looking for a suite and then for a name is looking for a target among all headings. -/
theorem HoldsFiles.headingNamed?_eq_find? (h : s.HoldsFiles) (suite name : String) :
    s.headingNamed? suite name = s.headings.find? fun t => t.target == ⟨suite, name⟩ := by
  rw [headingNamed?, headings, Hierarchy.headings, List.find?_flatMap, ← List.head?_filterMap,
    ← List.head?_filterMap]
  congr 1
  apply List.filterMap_congr
  intro root hroot
  split
  next he =>
    apply List.find?_congr
    intro t ht
    rw [target_beq_iff, h.suite_eq hroot ht, he, Bool.true_and]
  next hne =>
    symm
    rw [List.find?_eq_none]
    intro t ht he
    rw [target_beq_iff, h.suite_eq hroot ht, Bool.and_eq_true] at he
    exact hne he.1

theorem HoldsFiles.of_headingNamed? (h : s.HoldsFiles) {suite name : String}
    (hfound : s.headingNamed? suite name = some t) :
    t ∈ s.headings ∧ t.target = ⟨suite, name⟩ := by
  rw [h.headingNamed?_eq_find?] at hfound
  have htarget := List.find?_some hfound
  exact ⟨List.mem_of_find?_eq_some hfound, beq_iff_eq.1 htarget⟩

theorem HoldsFiles.headingNamed?_eq_none_iff (h : s.HoldsFiles) (suite name : String) :
    s.headingNamed? suite name = none ↔ ∀ t ∈ s.headings, t.target ≠ ⟨suite, name⟩ := by
  rw [h.headingNamed?_eq_find?, List.find?_eq_none]
  simp only [beq_iff_eq, ne_eq]

theorem HoldsFiles.select_eq_filter (h : s.HoldsFiles) :
    s.select {} = s.headings.filter fun t =>
      (s.headingNamed? t.content.suite t.content.label).map Tree.key == some t.key := by
  change firsts Tree.target s.headings = _
  rw [firsts_eq_filter h.nodup_keys_headings]
  apply List.filter_congr
  intro t _
  rw [h.headingNamed?_eq_find?]
  rfl

theorem HoldsFiles.headingNamed?_of_mem_select (h : s.HoldsFiles) (ht : t ∈ s.select {}) :
    s.headingNamed? t.content.suite t.content.label = some t := by
  rw [h.select_eq_filter, List.mem_filter, beq_iff_eq, Option.map_eq_some_iff] at ht
  obtain ⟨hmem, found, hfound, hkey⟩ := ht
  obtain rfl : found = t := by
    have hin := (h.of_headingNamed? hfound).1
    exact List.inj_on_of_nodup_map h.nodup_keys_headings hin hmem hkey
  exact hfound

open Reconciliation (applyResult)

/-- What a run of everything starts are the headings, in their order, that are found under their own
suite and name: every target once. A result for one of them is applied to it, whatever results of
the report come before. -/
theorem Reachable.select_all (h : s.Reachable) :
    s.select {} = s.headings.filter (fun t =>
        (s.headingNamed? t.content.suite t.content.label).map Tree.key == some t.key) ∧
      ((s.select {}).map Tree.target).Nodup ∧
      (∀ t ∈ s.headings, t.target ∈ (s.select {}).map Tree.target) ∧
      ∀ t ∈ s.select {}, ∀ (files : Files) (report : Report) (run : Run)
        (before : List ReportedTest) (result : ReportedTest),
        t.target = ⟨result.suite, result.name⟩ →
          let state := before.foldl (Reconciliation.step files report)
            { session := s, run, summary := {}, sources := [] }
          ∃ heading, state.session.headingNamed? result.suite result.name = some heading ∧
            heading.face = t.face ∧
            Reconciliation.step files report state result =
              applyResult files report state heading result := by
  refine ⟨h.holdsFiles.select_eq_filter, s.nodup_targets_select _, ?_, ?_⟩
  · intro t ht
    exact mem_map_firsts.2 (List.mem_map_of_mem ht)
  · intro t ht files report run before result htarget
    have hfound := h.holdsFiles.headingNamed?_of_mem_select ht
    obtain ⟨hsuite, hname⟩ := Target.mk.inj htarget
    have haccounts := Reconciliation.accounts_foldl h.holdsFiles files report run before
    obtain ⟨heading, hheading, hface⟩ :=
      exists_headingNamed? haccounts.index (hsuite ▸ hname ▸ hfound)
    exact ⟨heading, hheading, hface, by rw [Reconciliation.step, hheading]⟩

/-- A session that knows two files of one suite, of which the second, with the key 5, is empty. -/
def emptyTwin : Session :=
  ((oneFile.plantText 0 nestedText none).2.rootFor ⟨"/", ["b", "T.4dm"]⟩).2

theorem reachable_plantText_emptyTwin
    (hfile : (emptyTwin.hierarchy.node? key).map Node.isFile = some true) :
    (emptyTwin.plantText key nestedText none).2.Reachable := by
  obtain ⟨root, hkey, hfile⟩ := Option.map_eq_some_iff.1 hfile
  have hempty : emptyTwin.Reachable :=
    .step reachable_nestedText (.rootFor ⟨"/", ["b", "T.4dm"]⟩)
  exact .step hempty (.plantText nestedText none hkey hfile)

theorem select_all_emptyTwin :
    let s := (emptyTwin.plantText 5 nestedText none).2
    s.Reachable ∧ s.headings.map Tree.key = [1, 3, 6, 8] ∧
      (s.select {}).map Tree.key = [1, 3] ∧ ((s.select {}).map Tree.target).Nodup := by
  intro s
  have hfacts : ((emptyTwin.hierarchy.node? 5).map Node.isFile, s.headings.map Tree.key,
      (s.select {}).map Tree.key) = (some true, [1, 3, 6, 8], [1, 3]) := by decide +kernel
  simp only [Prod.mk.injEq, Option.map_eq_some_iff] at hfacts
  obtain ⟨⟨root, hkey, hfile⟩, hheadings, hselect⟩ := hfacts
  have hempty : emptyTwin.Reachable :=
    .step reachable_nestedText (.rootFor ⟨"/", ["b", "T.4dm"]⟩)
  have hreach : s.Reachable := .step hempty (.plantText nestedText none hkey hfile)
  exact ⟨hreach, hheadings, hselect, hreach.select_all.2.1⟩

end Session

end SuiteAtlas
