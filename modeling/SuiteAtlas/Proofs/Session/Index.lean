import SuiteAtlas.Proofs.Session.Reachable

namespace SuiteAtlas

open SuiteAtlas.Tree (adopt graft leaves)

namespace Tree

def face (t : Tree) : Key × Node :=
  (t.key, t.content.withChildren [])

def faces (t : Tree) : List (Key × Node) :=
  t.headings.map face

def facesIn (ts : List Tree) : List (Key × Node) :=
  ts.flatMap fun t => if t.isHeading then t.face :: t.faces else []

def assertions (t : Tree) : List Node :=
  (t.children.filter isAssertion).map content

variable {t s new : Tree} {ts own nested : List Tree} {key k : Key} {content : Node}

theorem faces_eq (t : Tree) : t.faces = facesIn t.children := by
  rw [faces, headings_eq, List.map_flatMap, facesIn]
  apply List.flatMap_congr
  intro c _
  split
  · rfl
  · rfl

theorem facesIn_append (ts us : List Tree) : facesIn (ts ++ us) = facesIn ts ++ facesIn us :=
  List.flatMap_append

theorem facesIn_assertions (h : ∀ a ∈ ts, a.isAssertion = true) : facesIn ts = [] := by
  apply List.flatMap_eq_nil_iff.2
  intro a ha
  rw [not_isHeading_of_isAssertion (h a ha)]
  rfl

theorem faces_graft (hnew : ∀ s ∈ t.subtrees, s.key = k →
      new.isHeading = s.isHeading ∧ new.face = s.face ∧ new.faces = s.faces) :
    (graft k new t).faces = t.faces := by
  induction t using induct with
  | node key content children ih =>
    by_cases hk : key = k
    · rw [graft, if_pos hk]
      exact (hnew _ (mem_subtrees_self _) hk).2.2
    · rw [graft, if_neg hk, faces_eq, faces_eq]
      change facesIn (children.map (graft k new)) = facesIn children
      rw [facesIn, List.flatMap_map, facesIn]
      apply List.flatMap_congr
      intro c hc
      have hfaces := ih c hc fun s hs => hnew s (mem_subtrees_iff.2 (.inr ⟨c, hc, hs⟩))
      rw [hfaces]
      by_cases hck : c.key = k
      · obtain ⟨hheading, hface, _⟩ := hnew c (mem_subtrees_child hc) hck
        rw [graft_of_eq hck, hheading, hface]
      · rw [graft_of_ne hck]
        rfl

theorem assertions_graft (hne : t.key ≠ k) (hold : ∀ c ∈ t.children, c.key = k →
    c.isAssertion = false) (hnew : new.isAssertion = false) :
    (graft k new t).assertions = t.assertions := by
  have hsame : ∀ c ∈ t.children, (isAssertion ∘ graft k new) c = c.isAssertion := by
    intro c hc
    rw [Function.comp_apply]
    by_cases hck : c.key = k
    · rw [graft_of_eq hck, hnew, hold c hc hck]
    · rw [graft_of_ne hck]
      rfl
  rw [graft_of_ne hne, assertions, assertions]
  change ((t.children.map (graft k new)).filter isAssertion).map Tree.content = _
  rw [List.filter_map, List.map_map, List.filter_congr hsame]
  apply List.map_congr_left
  intro c hc
  obtain ⟨hmem, hassertion⟩ := List.mem_filter.1 hc
  have hck : c.key ≠ k := fun hck => by
    rw [hold c hmem hck] at hassertion
    exact Bool.false_ne_true hassertion
  rw [Function.comp_apply, graft_of_ne hck]
  rfl

theorem assertions_adopt (hown : ∀ a ∈ own, a.isAssertion = true)
    (hnested : ∀ s ∈ nested, s.isAssertion = false) :
    (adopt key content (own ++ nested)).assertions =
      own.map fun a => a.content.withParent (some key) := by
  have hsame (c : Tree) : (isAssertion ∘ Tree.withParent key) c = c.isAssertion := by
    cases c
    rfl
  have hall : own.filter isAssertion = own := List.filter_eq_self.2 hown
  have hnone : nested.filter isAssertion = [] := by
    rw [List.filter_eq_nil_iff]
    intro s hs
    rw [hnested s hs]
    exact Bool.false_ne_true
  rw [assertions]
  change (((own ++ nested).map (Tree.withParent key)).filter isAssertion).map Tree.content = _
  rw [List.filter_map, List.map_map, List.filter_congr fun c _ => hsame c, List.filter_append,
    hall, hnone, List.append_nil]
  exact List.map_congr_left fun a _ => withParent_content a

end Tree

namespace Reconciliation

theorem map_content_splitChildren (heading : Tree) :
    (splitChildren heading).1.map Tree.content = heading.assertions := by
  rw [splitChildren, List.partition_eq_filter_filter, Tree.assertions]

end Reconciliation

namespace Hierarchy

/-- The files with the headings below them, apart from what they have as children. -/
def index (h : Hierarchy) : List (Node × List (Key × Node)) :=
  h.rootTrees.map fun t => (t.content, t.faces)

def headingKeys (h : Hierarchy) : List Key :=
  h.index.flatMap fun file => file.2.map Prod.fst

def assertionsAt (h : Hierarchy) (key : Key) : List Node :=
  ((h.tree? key).map Tree.assertions).getD []

variable {h : Hierarchy} {ts : List Tree} {t s heading : Tree} {key : Key} {nodes : List Node}

theorem headingKeys_eq (h : Hierarchy) :
    h.headingKeys = h.rootTrees.flatMap fun t => t.headings.map Tree.key := by
  rw [headingKeys, index, List.flatMap_map]
  apply List.flatMap_congr
  intro t _
  rw [Tree.faces, List.map_map]
  rfl

theorem mem_headingKeys : key ∈ h.headingKeys ↔
    ∃ t ∈ h.rootTrees, ∃ s ∈ t.headings, s.key = key := by
  simp only [headingKeys_eq, List.mem_flatMap, List.mem_map]

theorem Holds.tree?_of_mem (hts : h.Holds ts) (ht : t ∈ ts) (hs : s ∈ t.subtrees) :
    h.tree? s.key = some s :=
  ((hts.stands t ht).of_mem hs).tree?_eq ((hts.linked t ht).of_mem hs)
    ((hts.keys_nodup ht).sublist (Tree.keys_sublist hs))

theorem Holds.assertionsAt_eq (hts : h.Holds ts) (ht : t ∈ ts) (hs : s ∈ t.subtrees) :
    h.assertionsAt s.key = s.assertions := by
  rw [assertionsAt, hts.tree?_of_mem ht hs]
  rfl

namespace HoldsFiles

open Reconciliation (replacement splitChildren splitChildren_spec)

section Heading

variable (hts : h.HoldsFiles ts) (ht : t ∈ ts) (hmem : heading ∈ t.subtrees)

include hts ht hmem

theorem eq_of_key_eq {r : Tree} (hr : r ∈ ts) (hs : s ∈ r.subtrees) (hk : s.key = heading.key) :
    s = heading := by
  have hold := hts.holds.tree?_of_mem ht hmem
  rw [← hk, hts.holds.tree?_of_mem hr hs] at hold
  exact Option.some.inj hold

theorem key_ne_of_mem (hheading : heading.isHeading = true) {r : Tree} (hr : r ∈ ts) :
    r.key ≠ heading.key := by
  intro hk
  obtain rfl := hts.eq_of_key_eq ht hmem hr r.mem_subtrees_self hk
  rw [Tree.not_isHeading_of_isFile (hts.isTestFile r hr).isFile] at hheading
  exact Bool.false_ne_true hheading

theorem map_withParent_nested (hheading : heading.isHeading = true) :
    (splitChildren heading).2.map (Tree.withParent heading.key) = (splitChildren heading).2 := by
  obtain ⟨hsplit, _, _⟩ :=
    splitChildren_spec ((hts.isTestFile t ht).isHeadingOf_of_mem heading hmem hheading)
  refine (List.map_congr_left fun c hc => ?_).trans (List.map_id' _)
  have hchild : c ∈ heading.children := hsplit ▸ List.mem_append_right _ hc
  exact Tree.withParent_of_parent ((hts.holds.linked t ht heading hmem).2 c hchild)

end Heading

section Replace

variable (hts : h.HoldsFiles ts) (ht : t ∈ ts) (hmem : heading ∈ t.subtrees)
  (hheading : heading.isHeading = true)
  (hnodes : ∀ n ∈ nodes, n.children = [] ∧ ∀ k, (Tree.node k n []).IsAssertionOf heading.content)
  (hids : (nodes.map Node.id).Nodup)

include hts ht hmem hheading hnodes hids

theorem faces_replacement : (replacement h heading nodes).faces = heading.faces := by
  obtain ⟨_, hown, _⟩ := hts.mayAdopt_leaves ht hmem hheading hnodes hids
  obtain ⟨hsplit, hformer, _⟩ :=
    splitChildren_spec ((hts.isTestFile t ht).isHeadingOf_of_mem heading hmem hheading)
  have hnone : Tree.facesIn ((leaves h.nodes.size nodes).map (Tree.withParent heading.key)) =
      [] := by
    apply Tree.facesIn_assertions
    rw [List.forall_mem_map]
    exact fun a ha => ((hown a ha).withParent heading.key).isAssertion
  rw [Tree.faces_eq, Tree.faces_eq, hsplit, Tree.facesIn_append,
    Tree.facesIn_assertions fun a ha => (hformer a ha).isAssertion]
  change Tree.facesIn ((leaves h.nodes.size nodes ++ (splitChildren heading).2).map
    (Tree.withParent heading.key)) = _
  rw [List.map_append, hts.map_withParent_nested ht hmem hheading, Tree.facesIn_append, hnone]

theorem index_replaceAssertions :
    (Reconciliation.replaceAssertions h heading nodes).index = h.index := by
  have hnew := hts.replaceAssertions_graft ht hmem hheading hnodes hids
  rw [index, index, hnew.holds.rootTrees_eq, hts.holds.rootTrees_eq, List.map_map]
  apply List.map_congr_left
  intro r hr
  have hcontent : (Tree.graft heading.key (replacement h heading nodes) r).content = r.content := by
    rw [Tree.graft_of_ne (hts.key_ne_of_mem ht hmem hheading hr)]
    rfl
  rw [Function.comp_apply, hcontent, Tree.faces_graft]
  intro s hs hk
  obtain rfl := hts.eq_of_key_eq ht hmem hr hs hk
  exact ⟨rfl, rfl, hts.faces_replacement ht hmem hheading hnodes hids⟩

theorem assertionsAt_replaceAssertions_self :
    (Reconciliation.replaceAssertions h heading nodes).assertionsAt heading.key =
      nodes.map (Node.withParent (some heading.key)) := by
  have hnew := hts.replaceAssertions_graft ht hmem hheading hnodes hids
  obtain ⟨_, hown, _⟩ := hts.mayAdopt_leaves ht hmem hheading hnodes hids
  obtain ⟨_, _, hnested⟩ :=
    splitChildren_spec ((hts.isTestFile t ht).isHeadingOf_of_mem heading hmem hheading)
  have hin := Tree.mem_subtrees_graft_self (replacement h heading nodes) (Tree.key_mem_keys hmem)
  have hat := hnew.holds.assertionsAt_eq (List.mem_map_of_mem ht) hin
  change _ = (replacement h heading nodes).assertions at hat
  refine hat.trans ?_
  rw [replacement, Tree.assertions_adopt (fun a ha => (hown a ha).isAssertion)
    fun s hs => Tree.not_isAssertion_of_isHeading (hnested s hs)]
  have hcontents := congrArg (List.map (Node.withParent (some heading.key)))
    (Tree.map_content_leaves h.nodes.size nodes)
  rw [List.map_map] at hcontents
  exact hcontents

theorem assertionsAt_replaceAssertions_of_ne
    (hkey : key ∈ (Reconciliation.replaceAssertions h heading nodes).headingKeys)
    (hne : key ≠ heading.key) :
    (Reconciliation.replaceAssertions h heading nodes).assertionsAt key = h.assertionsAt key := by
  have hnew := hts.replaceAssertions_graft ht hmem hheading hnodes hids
  obtain ⟨_, hown, _⟩ := hts.mayAdopt_leaves ht hmem hheading hnodes hids
  obtain ⟨hsplit, _, _⟩ :=
    splitChildren_spec ((hts.isTestFile t ht).isHeadingOf_of_mem heading hmem hheading)
  rw [mem_headingKeys, hnew.holds.rootTrees_eq] at hkey
  obtain ⟨t', ht', s', hs', rfl⟩ := hkey
  obtain ⟨r, hr, rfl⟩ := List.mem_map.1 ht'
  obtain ⟨hs', hheading'⟩ := Tree.of_mem_headings hs'
  rw [hnew.holds.assertionsAt_eq ht' hs']
  rcases Tree.mem_subtrees_graft hs' with hs | ⟨q, hq, hqk, rfl⟩
  · rcases Tree.mem_subtrees_adopt hs with rfl | ⟨c, hc, hs⟩
    · exact absurd rfl hne
    rcases List.mem_append.1 hc with hc | hc
    · have ha := (hown c hc).withParent heading.key
      rw [Tree.subtrees_eq, ha.children, List.flatMap_nil, List.mem_singleton] at hs
      rw [hs, Tree.not_isHeading_of_isAssertion ha.isAssertion] at hheading'
      exact absurd hheading' Bool.false_ne_true
    · have hchild : c ∈ heading.children := hsplit ▸ List.mem_append_right _ hc
      rw [Tree.withParent_of_parent ((hts.holds.linked t ht heading hmem).2 c hchild)] at hs
      have hin := Tree.mem_subtrees_trans hmem
        (Tree.mem_subtrees_trans (Tree.mem_subtrees_child hchild) hs)
      exact (hts.holds.assertionsAt_eq ht hin).symm
  · have hassertion : (replacement h heading nodes).isAssertion = false :=
      Tree.not_isAssertion_of_isHeading (t := heading) hheading
    have hkey : (replacement h heading nodes).key = heading.key := rfl
    have hsame : (Tree.graft heading.key (replacement h heading nodes) q).assertions =
        q.assertions := by
      apply Tree.assertions_graft hqk _ hassertion
      intro c hc hck
      rw [hts.eq_of_key_eq ht hmem hr (Tree.mem_subtrees_trans hq (Tree.mem_subtrees_child hc)) hck]
      exact Tree.not_isAssertion_of_isHeading hheading
    rw [hsame, Tree.graft_key q hkey, hts.holds.assertionsAt_eq hr hq]

end Replace

end HoldsFiles

def named? (h : Hierarchy) (suite name : String) : Option (Key × Node) :=
  h.index.findSome? fun file =>
    if file.1.suite == suite then file.2.find? fun heading => heading.2.label == name else none

theorem named?_of_index_eq {h' : Hierarchy} (hindex : h'.index = h.index) (suite name : String) :
    h'.named? suite name = h.named? suite name := by
  rw [named?, named?, hindex]

theorem mem_headingKeys_of_named? {suite name : String} {heading : Key × Node}
    (hh : h.named? suite name = some heading) : heading.1 ∈ h.headingKeys := by
  obtain ⟨file, hfile, hfound⟩ := List.exists_of_findSome?_eq_some hh
  split at hfound
  · exact List.mem_flatMap.2 ⟨file, hfile, List.mem_map_of_mem (List.mem_of_find?_eq_some hfound)⟩
  · cases hfound

end Hierarchy

namespace Session

variable {s s' : Session} {suite name : String} {heading : Tree}

theorem map_face_headingNamed? (s : Session) (suite name : String) :
    (s.headingNamed? suite name).map Tree.face = s.hierarchy.named? suite name := by
  rw [headingNamed?, Hierarchy.named?, Hierarchy.index, List.findSome?_map, List.map_findSome?]
  congr 1
  funext t
  rw [Function.comp_apply, Function.comp_apply]
  split
  · rw [Tree.faces, List.find?_map]
    rfl
  · rfl

theorem named?_eq_face (h : s.headingNamed? suite name = some heading) :
    s.hierarchy.named? suite name = some heading.face := by
  rw [← map_face_headingNamed?, h, Option.map_some]

theorem exists_headingNamed? (hindex : s'.hierarchy.index = s.hierarchy.index)
    (h : s.headingNamed? suite name = some heading) :
    ∃ shown, s'.headingNamed? suite name = some shown ∧ shown.face = heading.face := by
  have hshown := map_face_headingNamed? s' suite name
  rw [Hierarchy.named?_of_index_eq hindex, named?_eq_face h, Option.map_eq_some_iff] at hshown
  exact hshown

theorem HoldsFiles.assertionsAt_eq (hs : s.HoldsFiles)
    (h : s.headingNamed? suite name = some heading) :
    s.hierarchy.assertionsAt heading.key = heading.assertions := by
  obtain ⟨ts, hts⟩ := hs
  obtain ⟨t, ht, hmem, _⟩ := headingNamed?_spec hts h
  exact hts.holds.assertionsAt_eq ht hmem

end Session

namespace Reconciliation

variable {state : State} {result : ReportedTest} {heading : Tree} {key : Key}

theorem applyResult_assertionsAt (hs : state.session.HoldsFiles)
    (hheading : state.session.headingNamed? result.suite result.name = some heading)
    (files : Files) (report : Report) :
    let h := (applyResult files report state heading result).session.hierarchy
    h.index = state.session.hierarchy.index ∧
      h.assertionsAt heading.key =
        (resultNodes heading.content (state.session.stamp + 1)
          (sourceOf files state.sources heading.content.file).1 0
          (state.session.hierarchy.assertionsAt heading.key) result.assertions).map
          (Node.withParent (some heading.key)) ∧
      ∀ key ∈ h.headingKeys, key ≠ heading.key →
        h.assertionsAt key = state.session.hierarchy.assertionsAt key := by
  obtain ⟨ts, hts⟩ := hs
  obtain ⟨t, ht, hmem, hh⟩ := Session.headingNamed?_spec hts hheading
  have hnodes (previous : List Node) (n : Node)
      (hn : n ∈ resultNodes heading.content (state.session.stamp + 1)
        (sourceOf files state.sources heading.content.file).1 0 previous result.assertions) :=
    isAssertionOf_of_mem_resultNodes hn
  have hids := nodup_ids_resultNodes heading.content (state.session.stamp + 1)
    (sourceOf files state.sources heading.content.file).1 0
  refine ⟨hts.index_replaceAssertions ht hmem hh (hnodes _) (hids _ _), ?_, fun key hkey hne =>
    hts.assertionsAt_replaceAssertions_of_ne ht hmem hh (hnodes _) (hids _ _) hkey hne⟩
  rw [hts.holds.assertionsAt_eq ht hmem, ← map_content_splitChildren]
  exact hts.assertionsAt_replaceAssertions_self ht hmem hh (hnodes _) (hids _ _)

theorem step_assertionsAt {named : Key × Node} (hs : state.session.HoldsFiles)
    (hnamed : state.session.hierarchy.named? result.suite result.name = some named)
    (files : Files) (report : Report) :
    (step files report state result).session.hierarchy.assertionsAt named.1 =
      (resultNodes named.2 (state.session.stamp + 1)
        (sourceOf files state.sources named.2.file).1 0
        (state.session.hierarchy.assertionsAt named.1) result.assertions).map
        (Node.withParent (some named.1)) := by
  rw [← Session.map_face_headingNamed?, Option.map_eq_some_iff] at hnamed
  obtain ⟨heading, hheading, rfl⟩ := hnamed
  obtain ⟨_, hself, _⟩ := applyResult_assertionsAt hs hheading files report
  rw [step, hheading, Tree.face, resultNodes_withChildren]
  exact hself

theorem step_assertionsAt_of_ne (hs : state.session.HoldsFiles)
    (hkey : key ∈ state.session.hierarchy.headingKeys)
    (hother : (state.session.hierarchy.named? result.suite result.name).map Prod.fst ≠ some key)
    (files : Files) (report : Report) :
    (step files report state result).session.hierarchy.assertionsAt key =
      state.session.hierarchy.assertionsAt key := by
  rw [step]
  cases hheading : state.session.headingNamed? result.suite result.name with
  | none => rfl
  | some heading =>
    obtain ⟨hindex, _, hrest⟩ := applyResult_assertionsAt hs hheading files report
    rw [Session.named?_eq_face hheading, Option.map_some, ne_eq, Option.some.injEq] at hother
    apply hrest key _ (Ne.symm hother)
    rwa [Hierarchy.headingKeys, hindex]

theorem step_index (hs : state.session.HoldsFiles) (files : Files) (report : Report)
    (result : ReportedTest) :
    (step files report state result).session.hierarchy.index = state.session.hierarchy.index := by
  rw [step]
  split
  next heading hheading => exact (applyResult_assertionsAt hs hheading files report).1
  next => rfl

theorem foldl_step_index (hs : state.session.HoldsFiles) (files : Files) (report : Report)
    (results : List ReportedTest) :
    (results.foldl (step files report) state).session.hierarchy.index =
      state.session.hierarchy.index := by
  induction results generalizing state with
  | nil => rfl
  | cons result rest ih =>
    rw [List.foldl_cons, ih (hs.step files report result), step_index hs]

end Reconciliation

theorem Session.reconcile_index {s : Session} {nesting : Nat} {files : Files}
    {output : List Char} {run : Run} {outcome : Reconciled} (h : s.HoldsFiles)
    (hs : s.reconcile nesting files output run = .ok outcome) :
    outcome.session.hierarchy.index = s.hierarchy.index := by
  rcases reconcile_cases hs with ⟨value, report, _, rfl⟩ | ⟨error, _, rfl⟩
  · exact Reconciliation.foldl_step_index h files report _
  · rfl

end SuiteAtlas
