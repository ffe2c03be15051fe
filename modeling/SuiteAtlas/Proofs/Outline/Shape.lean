import SuiteAtlas.Proofs.Hierarchy.Shape
import SuiteAtlas.Proofs.Outline.Planting

namespace SuiteAtlas

open Address Source
open SuiteAtlas.Tree (labels)

namespace Tree

variable {next : Key} {nodes : List Node} {t : Tree}

theorem exists_of_mem_leaves (ht : t ∈ leaves next nodes) : ∃ k, ∃ n ∈ nodes, t = .node k n [] := by
  induction nodes generalizing next with
  | nil => simp [leaves] at ht
  | cons first rest ih =>
    rcases List.mem_cons.1 ht with rfl | ht
    · exact ⟨next, first, List.mem_cons_self, rfl⟩
    · obtain ⟨k, n, hn, he⟩ := ih ht
      exact ⟨k, n, List.mem_cons_of_mem _ hn, he⟩

end Tree

namespace Site

variable {site : Site} {parentId : String} {next : Key} {c : Tree} {root : Node}

theorem exists_of_mem_forest {sections : List Section}
    (hc : c ∈ site.forest parentId next sections) :
    ∃ k, ∃ s ∈ sections, c = site.tree parentId k s := by
  induction sections generalizing next with
  | nil => simp [forest] at hc
  | cons s rest ih =>
    rw [forest] at hc
    rcases List.mem_cons.1 hc with rfl | hc
    · exact ⟨next, s, List.mem_cons_self, rfl⟩
    · obtain ⟨k, r, hr, he⟩ := ih hc
      exact ⟨k, r, List.mem_cons_of_mem _ hr, he⟩

theorem isHeading_tree (site : Site) (parentId : String) (next : Key) (s : Section) :
    (site.tree parentId next s).isHeading = true := by
  cases s
  rfl

theorem isAssertionOf_of_mem_leaves {heading : Heading} {assertions : List Assertion}
    (hc : c ∈ Tree.leaves next (assertions.map
      (site.assertionNode (site.headingId heading) heading.tags))) :
    c.IsAssertionOf (site.headingNode parentId heading) := by
  obtain ⟨k, n, hn, rfl⟩ := Tree.exists_of_mem_leaves hc
  obtain ⟨a, _, rfl⟩ := List.mem_map.1 hn
  exact ⟨rfl, rfl, ⟨_, assertionId_eq _ a⟩, rfl, rfl⟩

theorem isHeadingOf_of_mem_tree (hid : root.id = site.id) (hfile : root.file = site.file)
    (s : Section) (hb : Block.AreProper s.blocks) (parentId : String) (next : Key) :
    ∀ r ∈ (site.tree parentId next s).subtrees, r.isHeading = true → r.IsHeadingOf root := by
  induction s using Section.induct generalizing parentId next with
  | mk heading assertions nested ih =>
    have hids := @Hierarchy.nodup_ids_children site (site.headingId heading) _ _ _ hb (next + 1)
      (next + 1 + assertions.length) heading.tags
    rw [Section.blocks_eq] at hb
    have hown := hb.isProper _ List.mem_cons_self
    intro r hr hr'
    rw [tree] at hr
    rcases Tree.mem_subtrees_adopt hr with rfl | ⟨c, hc, hr⟩
    · apply Tree.isHeadingOf_adopt
      · exact ⟨rfl, hown.isStep, by rw [hid]; rfl, hfile.symm, hown.tags_ne_nil, hown.nodup_tags,
          [], [], rfl, by simp, by simp, List.nodup_nil⟩
      · exact fun a ha => isAssertionOf_of_mem_leaves ha
      · intro s hs
        obtain ⟨k, s', _, rfl⟩ := exists_of_mem_forest hs
        exact isHeading_tree site _ k s'
      · rw [List.map_append, List.nodup_append] at hids
        exact hids.1
    rcases List.mem_append.1 hc with hc | hc
    · -- assertions are no headings, and nothing lies below them
      obtain ⟨k, n, hn, rfl⟩ := Tree.exists_of_mem_leaves hc
      obtain ⟨a, _, rfl⟩ := List.mem_map.1 hn
      rw [Tree.subtrees_eq, Tree.withParent_children, Tree.children, List.flatMap_nil,
        List.mem_singleton] at hr
      rw [hr] at hr'
      exact absurd hr' Bool.false_ne_true
    · obtain ⟨k, s', hs', rfl⟩ := exists_of_mem_forest hc
      have hb' : Block.AreProper s'.blocks := hb.sublist ((Section.blocks_sublist hs').cons _)
      have hof := ih s' hs' hb' (site.headingId heading) k
      rcases Tree.mem_subtrees_iff.1 hr with rfl | ⟨d, hd, hr⟩
      · exact (hof _ (Tree.mem_subtrees_self _) (isHeading_tree site _ k s')).withParent next
      · rw [Tree.withParent_children] at hd
        exact hof r (Tree.mem_subtrees_iff.2 (.inr ⟨d, hd, hr⟩)) hr'

theorem labels_forest_of {sections : List Section}
    (hs : ∀ s ∈ sections, ∀ (parentId : String) (next : Key),
      labels (site.tree parentId next s).preorder = s.blocks.map fun b => b.heading.name)
    (parentId : String) (next : Key) :
    ((site.forest parentId next sections).flatMap fun c => labels c.preorder) =
      (sections.flatMap Section.blocks).map fun b => b.heading.name := by
  induction sections generalizing next with
  | nil => rw [forest]; rfl
  | cons s rest ih =>
    rw [forest, List.flatMap_cons, List.flatMap_cons, List.map_append, hs s List.mem_cons_self,
      ih fun s hm => hs s (List.mem_cons_of_mem _ hm)]

theorem labels_tree (s : Section) (parentId : String) (next : Key) :
    labels (site.tree parentId next s).preorder = s.blocks.map fun b => b.heading.name := by
  induction s using Section.induct generalizing parentId next with
  | mk heading assertions nested ih =>
    let node := site.headingNode parentId heading
    have hown : ∀ a ∈ Tree.leaves (next + 1)
        (assertions.map (site.assertionNode node.id heading.tags)), a.IsAssertionOf node :=
      fun a ha => isAssertionOf_of_mem_leaves ha
    rw [tree, Tree.labels_adopt, Tree.labels_append_assertions hown, labels_forest_of ih,
      Section.blocks_eq]
    rfl

theorem labels_forest (sections : List Section) (parentId : String) (next : Key) :
    labels ((site.forest parentId next sections).flatMap Tree.preorder) =
      (sections.flatMap Section.blocks).map fun b => b.heading.name := by
  rw [Tree.labels_flatMap]
  exact labels_forest_of (fun s _ => labels_tree s) parentId next

end Site

end SuiteAtlas
