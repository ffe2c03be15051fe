import SuiteAtlas.Proofs.Session.Results

namespace SuiteAtlas

open Source
open SuiteAtlas.Tree (labels)

structure Tree.IsWellFormed (t : Tree) : Prop where
  isFile : t.content.isFile = true
  /-- No two nodes have one id. -/
  nodup_ids : (t.preorder.map fun e => e.content.id).Nodup
  /-- Every node lists its children, and they name it as their parent; the root names none. -/
  isLinked : t.IsLinked
  parent : t.content.parent = none
  isHeading_of_mem : ∀ c ∈ t.children, c.isHeading = true
  /-- Below a heading lie assertions without children, then headings. -/
  children : ∀ s ∈ t.subtrees, s.isHeading = true → ∃ own nested, s.children = own ++ nested ∧
    (∀ a ∈ own, a.isAssertion = true ∧ a.children = []) ∧ ∀ c ∈ nested, c.isHeading = true
  nodup_labels : (labels t.preorder).Nodup
  file : ∀ e ∈ t.preorder, e.content.file = t.content.file
  tags : ∀ s ∈ t.subtrees, s.isHeading = true → s.content.tags ≠ [] ∧ s.content.tags.Nodup ∧
    ∀ a ∈ s.children, a.isAssertion = true → a.content.tags = s.content.tags

theorem Tree.IsTestFile.wellFormed {t : Tree} (h : t.IsTestFile) (hl : t.IsLinked)
    (hn : t.keys.Nodup) (hp : t.content.parent = none) : t.IsWellFormed where
  isFile := h.isFile
  nodup_ids := h.nodup_ids hn
  isLinked := hl
  parent := hp
  isHeading_of_mem := h.isHeading_of_mem
  children s hs hs' := by
    obtain ⟨own, nested, he, hown, hnested, _⟩ := (h.isHeadingOf_of_mem s hs hs').children
    exact ⟨own, nested, he, fun a ha => ⟨(hown a ha).isAssertion, (hown a ha).children⟩, hnested⟩
  nodup_labels := h.nodup_labels
  file e he := by
    rw [preorder_eq_map_subtrees] at he
    obtain ⟨s, hs, rfl⟩ := List.mem_map.1 he
    change s.content.file = t.content.file
    rcases h.cases hs with rfl | hs' | ⟨p, hp, hp', hsp, hs'⟩
    · rfl
    · exact (h.isHeadingOf_of_mem s hs hs').file
    · have hof := h.isHeadingOf_of_mem p hp hp'
      rw [(hof.isAssertionOf_of_mem hsp hs').file, hof.file]
  tags s hs hs' := by
    have hof := h.isHeadingOf_of_mem s hs hs'
    exact ⟨hof.tags_ne_nil, hof.nodup_tags, fun a ha ha' => (hof.isAssertionOf_of_mem ha ha').tags⟩

namespace Session

inductive Step (s : Session) : Session → Prop
  | discover {files : Files} {root : Path} {s' : Session} :
    s.discover files root = .ok s' → Step s s'
  | refresh {files : Files} {path : Path} {found : Option Key} {s' : Session} :
    s.refresh files path = .ok (found, s') → Step s s'
  /-- The node of a file is asked for. -/
  | rootFor (resolved : Path) : Step s (s.rootFor resolved).2
  /-- A text is planted below any file node, also below one that has left the hierarchy. -/
  | plantText {key : Key} {root : Node} (text : List Char) (stamp : Option Int) :
    s.hierarchy.node? key = some root → root.isFile = true → Step s (s.plantText key text stamp).2
  | reconcile {nesting : Nat} {files : Files} {output : List Char} {run : Run}
    {outcome : Reconciled} :
    s.reconcile nesting files output run = .ok outcome → Step s outcome.session
  | close : Step s s.close

/-- The states that operations lead to, in any order, from an empty session. -/
inductive Reachable : Session → Prop
  | start (workspace : Path) (settings : Settings) : Reachable { workspace, settings }
  | step {s s' : Session} : Reachable s → Step s s' → Reachable s'

def HoldsFiles (s : Session) : Prop :=
  ∃ ts, s.hierarchy.HoldsFiles ts

variable {s s' : Session} {files : Files} {path root : Path} {key : Key} {node : Node}

theorem HoldsFiles.rootFor (h : s.HoldsFiles) (resolved : Path) :
    (s.rootFor resolved).2.HoldsFiles := by
  obtain ⟨ts, hts⟩ := h
  rw [Session.rootFor]
  split
  next => exact ⟨ts, hts⟩
  next hnone => exact ⟨_, hts.putRoot hnone⟩

theorem HoldsFiles.dropRoot (h : s.HoldsFiles) (id : String) :
    HoldsFiles { s with hierarchy := s.hierarchy.dropRoot id } := by
  obtain ⟨ts, hts⟩ := h
  exact ⟨_, hts.dropRoot id⟩

theorem plantText_trees {ts : List Tree} (hts : s.hierarchy.HoldsFiles ts)
    (hkey : s.hierarchy.node? key = some node) (hfile : node.isFile = true) (text : List Char)
    (stamp : Option Int) :
    ∃ ts', (s.plantText key text stamp).2.hierarchy.HoldsFiles ts' ∧ ∀ t ∈ ts', t ∈ ts ∨
      t = Tree.adopt key node (s.hierarchy.plantedTrees node (stamp.getD (s.stamp + 1))
        (Outline.ofEvents (scan text))) := by
  obtain ⟨ts', hts', htrees⟩ := hts.plantOutline (stamp.getD (s.stamp + 1)) hkey hfile
    (Outline.areProper_ofEvents text)
  rw [plantText_hierarchy_eq]
  split
  next => exact ⟨ts', hts', htrees⟩
  next =>
    cases (s.hierarchy.plantOutline key (stamp.getD (s.stamp + 1))
        (Outline.ofEvents (scan text))).id? key with
    | none => exact ⟨ts', hts', htrees⟩
    | some id => exact ⟨_, hts'.dropRoot id, fun t ht => htrees t (List.mem_of_mem_filter ht)⟩

theorem HoldsFiles.plantText (h : s.HoldsFiles) (hkey : s.hierarchy.node? key = some node)
    (hfile : node.isFile = true) (text : List Char) (stamp : Option Int) :
    (s.plantText key text stamp).2.HoldsFiles := by
  obtain ⟨ts, hts⟩ := h
  obtain ⟨ts', hts', _⟩ := plantText_trees hts hkey hfile text stamp
  exact ⟨ts', hts'⟩

theorem isFile_rootFor (h : s.HoldsFiles) (resolved : Path) :
    ∃ node, (s.rootFor resolved).2.hierarchy.node? (s.rootFor resolved).1 = some node ∧
      node.isFile = true := by
  obtain ⟨ts, hts⟩ := h
  rw [Session.rootFor]
  split
  next key hsome =>
    have hmem := List.mem_of_find?_eq_some hsome
    rw [hts.holds.roots] at hmem
    obtain ⟨t, ht, rfl⟩ := List.mem_map.1 hmem
    exact ⟨t.content, (hts.holds.stands t ht).node? t.mem_subtrees_self,
      (hts.isTestFile t ht).isFile⟩
  next =>
    let node : Node := { id := resolved.toString, label := resolved.name, file := some resolved,
                         data := some .file }
    refine ⟨node.withParent none, ?_, rfl⟩
    change ((s.hierarchy.create node).2.putRoot s.hierarchy.nodes.size).node?
      s.hierarchy.nodes.size = _
    rw [Hierarchy.node?_putRoot, if_pos rfl, Hierarchy.node?_create_self]
    rfl

theorem HoldsFiles.plantFile (h : s.HoldsFiles) (hkey : s.hierarchy.node? key = some node)
    (hfile : node.isFile = true) (files : Files) (stamp : Option Int) :
    (s.plantFile files key stamp).2.HoldsFiles := by
  rw [Session.plantFile]
  split
  next text _ => exact h.plantText hkey hfile text stamp
  next => exact h

theorem HoldsFiles.refresh {found : Option Key} (h : s.HoldsFiles)
    (hs : s.refresh files path = .ok (found, s')) : s'.HoldsFiles := by
  cases hresolved : files.resolve path with
  | error e => simp [Session.refresh, hresolved, bind, Except.bind] at hs
  | ok resolved =>
    cases hthere : files.isFile resolved with
    | error e => simp [Session.refresh, hresolved, hthere, bind, Except.bind] at hs
    | ok there =>
      cases there with
      | false =>
        simp only [Session.refresh, hresolved, hthere, bind, Except.bind, pure, Except.pure,
          Bool.false_eq_true, if_false, Except.ok.injEq, Prod.mk.injEq] at hs
        rw [← hs.2]
        exact h.dropRoot resolved.toString
      | true =>
        obtain ⟨node, hkey, hfile⟩ := isFile_rootFor h resolved
        simp only [Session.refresh, hresolved, hthere, bind, Except.bind, pure, Except.pure,
          if_true, Except.ok.injEq, Prod.mk.injEq] at hs
        rw [← hs.2]
        exact (h.rootFor resolved).plantFile hkey hfile files none

theorem HoldsFiles.refreshAll {paths : List Path} (h : s.HoldsFiles)
    (hs : s.refreshAll files paths = .ok s') : s'.HoldsFiles := by
  induction paths generalizing s with
  | nil =>
    rw [Session.refreshAll, Except.ok.injEq] at hs
    exact hs ▸ h
  | cons path rest ih =>
    cases hfirst : s.refresh files path with
    | error e => simp [Session.refreshAll, hfirst, bind, Except.bind] at hs
    | ok result =>
      obtain ⟨found, s₁⟩ := result
      simp only [Session.refreshAll, hfirst, bind, Except.bind] at hs
      exact ih (h.refresh hfirst) hs

theorem HoldsFiles.discover (h : s.HoldsFiles) (hs : s.discover files root = .ok s') :
    s'.HoldsFiles := by
  cases hpaths : testFiles files s.settings root with
  | error e => simp [Session.discover, hpaths, bind, Except.bind] at hs
  | ok paths =>
    simp only [Session.discover, hpaths, bind, Except.bind] at hs
    cases hall : s.refreshAll files paths with
    | error e =>
      rw [hall] at hs
      cases hs
    | ok s₁ =>
      rw [hall] at hs
      cases hs
      exact h.refreshAll hall

theorem headingNamed?_spec {ts : List Tree} {suite name : String} {heading : Tree}
    (hts : s.hierarchy.HoldsFiles ts) (hh : s.headingNamed? suite name = some heading) :
    ∃ t ∈ ts, heading ∈ t.subtrees ∧ heading.isHeading = true := by
  obtain ⟨t, ht, hfound⟩ := List.exists_of_findSome?_eq_some hh
  rw [hts.holds.rootTrees_eq] at ht
  split at hfound
  · exact ⟨t, ht, Tree.of_mem_headings (List.mem_of_find?_eq_some hfound)⟩
  · simp at hfound

theorem HoldsFiles.step {state : Reconciliation.State} (h : state.session.HoldsFiles)
    (files : Files) (report : Report) (result : ReportedTest) :
    (Reconciliation.step files report state result).session.HoldsFiles := by
  obtain ⟨ts, hts⟩ := h
  rw [Reconciliation.step]
  split
  next heading hheading =>
    obtain ⟨t, ht, hmem, hh⟩ := headingNamed?_spec hts hheading
    exact (hts.replaceAssertions ht hmem hh
      (fun n hn => Reconciliation.isAssertionOf_of_mem_resultNodes hn)
      (Reconciliation.nodup_ids_resultNodes _ _ _ _ _ _)).1
  next => exact ⟨ts, hts⟩

theorem HoldsFiles.applyReport (h : s.HoldsFiles) (files : Files) (run : Run) (echo : String)
    (report : Report) :
    (Reconciliation.applyReport files s run echo report).session.HoldsFiles := by
  rw [Reconciliation.applyReport]
  have hfold (results : List ReportedTest) (state : Reconciliation.State)
      (hstate : state.session.HoldsFiles) :
      (results.foldl (Reconciliation.step files report) state).session.HoldsFiles := by
    induction results generalizing state with
    | nil => exact hstate
    | cons result rest ih => exact ih _ (hstate.step files report result)
  exact hfold report.testResults _ h

theorem HoldsFiles.reconcile {nesting : Nat} {output : List Char} {run : Run}
    {outcome : Reconciled} (h : s.HoldsFiles)
    (hs : s.reconcile nesting files output run = .ok outcome) : outcome.session.HoldsFiles := by
  rcases reconcile_cases hs with ⟨value, report, _, rfl⟩ | ⟨error, _, rfl⟩
  · exact h.applyReport files run (Report.echo value) report
  · exact h

theorem HoldsFiles.of_step (h : s.HoldsFiles) (hs : s.Step s') : s'.HoldsFiles := by
  cases hs with
  | discover hd => exact h.discover hd
  | refresh hr => exact h.refresh hr
  | rootFor resolved => exact h.rootFor resolved
  | plantText text stamp hkey hfile => exact h.plantText hkey hfile text stamp
  | reconcile hr => exact h.reconcile hr
  | close =>
    exact ⟨[], ⟨rfl, by simp, by simp, by simp⟩, by simp, by simp, List.nodup_nil⟩

theorem Reachable.holdsFiles (h : s.Reachable) : s.HoldsFiles := by
  induction h with
  | start workspace settings => exact ⟨[], Hierarchy.HoldsFiles.empty⟩
  | step _ hstep ih => exact ih.of_step hstep

/-- Writing to the hierarchy drops no child: a text that is planted gives a node for every event of
its outline, and a heading that gets reported assertions has all of them and its nested headings. -/
structure KeepsChildren (s : Session) : Prop where
  planted {key : Key} {node : Node} (text : List Char) (stamp : Option Int) :
    s.hierarchy.node? key = some node → node.isFile = true →
      ((s.plantText key text stamp).2.hierarchy.tree? key).map Tree.size =
        some ((((Outline.ofEvents (scan text)).sections.flatMap Section.blocks).flatMap
          Block.events).length + 1)
  replaced {t heading : Tree} (stamp : Int) (source : Option (List Char)) (previous : List Node)
    (reported : List ReportedAssertion) :
    t ∈ s.hierarchy.rootTrees → heading ∈ t.subtrees → heading.isHeading = true →
      let nodes := Reconciliation.resultNodes heading.content stamp source 0 previous reported
      ((Reconciliation.replaceAssertions s.hierarchy heading nodes).node? heading.key).map
          Node.children =
        some ((s.hierarchy.createAll nodes).1 ++
          (Reconciliation.splitChildren heading).2.map Tree.key)

theorem HoldsFiles.keepsChildren (h : s.HoldsFiles) : s.KeepsChildren where
  planted text stamp hkey hfile := by
    obtain ⟨number, htree⟩ := tree?_plantText hkey hfile text stamp
    rw [htree, Option.map_some, Hierarchy.size_plantedTree]
  replaced stamp source previous reported ht hmem hheading := by
    obtain ⟨ts, hts⟩ := h
    rw [hts.holds.rootTrees_eq] at ht
    have hnode := (hts.replaceAssertions ht hmem hheading
      (fun n hn => Reconciliation.isAssertionOf_of_mem_resultNodes hn)
      (Reconciliation.nodup_ids_resultNodes _ stamp source 0 previous reported)).2
    exact congrArg (Option.map Node.children) hnode

theorem reachable_nestedText : (oneFile.plantText 0 nestedText none).2.Reachable :=
  .step (.step (.start ⟨"/", []⟩ .default) (.rootFor ⟨"/", ["T.4dm"]⟩))
    (.plantText nestedText none node?_oneFile rfl)

/-- In every state that can be reached, the roots are those of well-formed trees, and nothing that
is written to them is dropped. -/
theorem Reachable.isWellFormed (h : s.Reachable) :
    s.hierarchy.rootTrees.map Tree.key = s.hierarchy.roots ∧
      (∀ t ∈ s.hierarchy.rootTrees, t.IsWellFormed) ∧ s.KeepsChildren := by
  have hkeeps := h.holdsFiles.keepsChildren
  obtain ⟨ts, hts⟩ := h.holdsFiles
  rw [hts.holds.rootTrees_eq, hts.holds.roots]
  exact ⟨rfl, fun t ht => (hts.isTestFile t ht).wellFormed (hts.holds.linked t ht)
    (hts.holds.keys_nodup ht) (hts.parent t ht), hkeeps⟩

/-- A file with a heading below a heading is reached, and its tree is well-formed. -/
theorem isWellFormed_nestedText :
    let s := (oneFile.plantText 0 nestedText none).2
    s.Reachable ∧ s.hierarchy.roots = [0] ∧ ∀ t ∈ s.hierarchy.rootTrees, t.IsWellFormed := by
  intro s
  exact ⟨reachable_nestedText, by decide +kernel, reachable_nestedText.isWellFormed.2.1⟩

end Session

end SuiteAtlas
