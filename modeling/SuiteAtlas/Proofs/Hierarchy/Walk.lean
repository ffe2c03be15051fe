import SuiteAtlas.Proofs.Runner.Selection

namespace SuiteAtlas

/-- A walk that starts from a stack of keys, of which the last one comes next, and what it has
listed once the stack is empty. -/
inductive Hierarchy.Walks (h : Hierarchy) : List Key → List Tree.Entry → Prop
  | done : h.Walks [] []
  | visit {stack : List Key} {key : Key} {node : Node} {listed : List Tree.Entry} :
    h.node? key = some node → h.Walks (stack ++ node.children.reverse) listed →
      h.Walks (stack ++ [key]) (⟨key, node⟩ :: listed)

namespace Hierarchy.Walks

variable {h : Hierarchy} {ts : List Tree} {stack : List Key} {listed other : List Tree.Entry}

theorem unique (hlisted : h.Walks stack listed) (hother : h.Walks stack other) :
    listed = other := by
  induction hlisted generalizing other with
  | done =>
    generalize he : ([] : List Key) = stack at hother
    cases hother with
    | done => rfl
    | visit => simp at he
  | @visit stack key node listed hnode _ ih =>
    generalize he : stack ++ [key] = stack' at hother
    cases hother with
    | done => simp at he
    | visit hnode' hrest =>
      obtain ⟨rfl, hkey⟩ := List.append_inj' he rfl
      cases hkey
      rw [hnode, Option.some.injEq] at hnode'
      subst hnode'
      rw [ih hrest]

/-- The stack holds the keys of the trees that are yet to be visited, the first one at its end. -/
theorem of_trees (hts : ∀ t ∈ ts, t.StandsIn h) (hl : ∀ t ∈ ts, t.IsLinked) :
    h.Walks (ts.map Tree.key).reverse (Tree.walk ts) := by
  induction ts using Tree.walk.induct with
  | case1 =>
    rw [Tree.walk]
    exact .done
  | case2 key content children rest ih =>
    have hself := Tree.mem_subtrees_self (.node key content children)
    have hnode := (hts _ List.mem_cons_self).node? hself
    have hchildren : content.children = children.map Tree.key :=
      (hl _ List.mem_cons_self _ hself).1
    have hnext : h.Walks ((rest.map Tree.key).reverse ++ content.children.reverse)
        (Tree.walk (children ++ rest)) := by
      rw [hchildren, ← List.reverse_append, ← List.map_append]
      apply ih
      · rw [List.forall_mem_append]
        exact ⟨fun c hc => (hts _ List.mem_cons_self).of_mem (Tree.mem_subtrees_child hc),
          fun t ht => hts t (List.mem_cons_of_mem _ ht)⟩
      · rw [List.forall_mem_append]
        exact ⟨fun c hc => (hl _ List.mem_cons_self).child hc,
          fun t ht => hl t (List.mem_cons_of_mem _ ht)⟩
    rw [Tree.walk, List.map_cons, List.reverse_cons]
    exact .visit hnode hnext

end Hierarchy.Walks

namespace Tree

theorem walk_eq (ts : List Tree) : walk ts = ts.flatMap preorder := by
  induction ts using walk.induct with
  | case1 => rw [walk, List.flatMap_nil]
  | case2 key content children rest ih =>
    rw [walk, ih, List.flatMap_append, List.flatMap_cons, preorder, preorderAll_eq,
      List.cons_append]

theorem IsTestFile.filter_preorder {t : Tree} (h : t.IsTestFile) :
    (t.preorder.filter fun e => e.content.isHeading) = t.headings.map entry := by
  rw [preorder_eq_map_subtrees, List.filter_map, ← h.filter_subtrees]
  rfl

end Tree

namespace Session

variable {s : Session}

theorem HoldsFiles.filter_walk (h : s.HoldsFiles) :
    (s.hierarchy.walk.filter fun e => e.content.isHeading) = s.headings.map Tree.entry := by
  obtain ⟨ts, hts⟩ := h
  rw [Hierarchy.walk, headings, Hierarchy.headings, hts.holds.rootTrees_eq, Tree.walk_eq,
    List.filter_flatMap, List.map_flatMap]
  exact List.flatMap_congr fun t ht => (hts.isTestFile t ht).filter_preorder

/-- In every state that can be reached, a walk that starts from the roots in reverse ends, and lists
the trees of the roots in depth-first order: every node of the table that lies below a root, once.
The headings among these nodes are those that are found file by file through headings only. -/
theorem Reachable.walks (h : s.Reachable) :
    (∀ listed, s.hierarchy.Walks s.hierarchy.roots.reverse listed ↔
        listed = s.hierarchy.walk) ∧
      s.hierarchy.walk = s.hierarchy.rootTrees.flatMap Tree.preorder ∧
      s.hierarchy.rootTrees.map Tree.key = s.hierarchy.roots ∧
      (∀ root ∈ s.hierarchy.rootTrees, ∀ t ∈ root.subtrees,
        s.hierarchy.node? t.key = some t.content ∧
          t.content.children = t.children.map Tree.key) ∧
      (s.hierarchy.walk.map Tree.Entry.key).Nodup ∧
      (s.hierarchy.walk.filter fun e => e.content.isHeading) = s.headings.map Tree.entry ∧
      s.headings = s.hierarchy.rootTrees.flatMap Tree.headings := by
  have hheadings := h.holdsFiles.filter_walk
  obtain ⟨ts, hts⟩ := h.holdsFiles
  have hwalks := Hierarchy.Walks.of_trees hts.holds.stands hts.holds.linked
  have hwalk : s.hierarchy.walk = Tree.walk ts := by
    rw [Hierarchy.walk, hts.holds.rootTrees_eq]
  rw [← hts.holds.roots, ← hwalk] at hwalks
  rw [Tree.walk_eq] at hwalk
  refine ⟨fun listed => ⟨fun hlisted => hlisted.unique hwalks, fun he => he ▸ hwalks⟩, ?_, ?_, ?_,
    ?_, hheadings, rfl⟩
  · rw [hwalk, hts.holds.rootTrees_eq]
  · rw [hts.holds.rootTrees_eq, hts.holds.roots]
  · rw [hts.holds.rootTrees_eq]
    exact fun root hroot t ht => ⟨(hts.holds.stands root hroot).node? ht,
      (hts.holds.linked root hroot t ht).1⟩
  · rw [hwalk, ← Tree.flatMap_keys]
    exact hts.holds.nodup

/-- After the first file is read anew, its nodes have greater keys than the empty file behind it. -/
theorem Reachable.walks_rereading :
    let s := (emptyTwin.plantText 0 nestedText none).2
    s.Reachable ∧ s.hierarchy.walk.map Tree.Entry.key = [0, 6, 7, 8, 9, 5] ∧
      s.hierarchy.Walks [5, 0] s.hierarchy.walk := by
  intro s
  have hfacts : (emptyTwin.hierarchy.node? 0).map Node.isFile = some true ∧
      s.hierarchy.roots = [0, 5] ∧
      (s.hierarchy.rootTrees.flatMap Tree.preorder).map Tree.Entry.key = [0, 6, 7, 8, 9, 5] := by
    decide +kernel
  obtain ⟨hfile, hroots, hkeys⟩ := hfacts
  have hreach : s.Reachable := reachable_plantText_emptyTwin hfile
  obtain ⟨hwalks, hwalk, _⟩ := Reachable.walks hreach
  have hlast : s.hierarchy.Walks s.hierarchy.roots.reverse s.hierarchy.walk := (hwalks _).2 rfl
  rw [hroots] at hlast
  exact ⟨hreach, hwalk ▸ hkeys, hlast⟩

end Session

end SuiteAtlas
