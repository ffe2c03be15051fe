import SuiteAtlas.Proofs.Hierarchy.Address
import SuiteAtlas.Proofs.Hierarchy.Forest
import SuiteAtlas.Proofs.Outline.Nesting

namespace SuiteAtlas

open Address Source
open SuiteAtlas.Tree (adopt)

/-- What is asked of a block: its name is a step of an id, it has tags, each of them once, and its
assertions start at different places. -/
structure Block.IsProper (b : Block) : Prop where
  isStep : IsStep b.heading.name
  tags_ne_nil : b.heading.tags ≠ []
  nodup_tags : b.heading.tags.Nodup
  nodup_starts : (b.assertions.map fun a => a.range.start).Nodup

structure Block.AreProper (blocks : List Block) : Prop where
  isProper : ∀ b ∈ blocks, b.IsProper
  nodup_names : (blocks.map fun b => b.heading.name).Nodup

theorem Block.AreProper.sublist {blocks some : List Block} (h : AreProper blocks)
    (hs : some.Sublist blocks) : AreProper some :=
  ⟨fun b hb => h.isProper b (hs.subset hb), h.nodup_names.sublist (hs.map _)⟩

namespace Tree

def leaves : Key → List Node → List Tree
  | _, [] => []
  | next, first :: rest => .node next first [] :: leaves (next + 1) rest

variable {next : Key} {nodes : List Node} {t : Tree}

theorem map_content_leaves (next : Key) (nodes : List Node) :
    (leaves next nodes).map content = nodes := by
  induction nodes generalizing next with
  | nil => rfl
  | cons first rest ih => rw [leaves, List.map_cons, ih, content]

theorem map_key_leaves (next : Key) (nodes : List Node) :
    (leaves next nodes).map key = List.range' next nodes.length := by
  induction nodes generalizing next with
  | nil => rfl
  | cons first rest ih => rw [leaves, List.map_cons, ih]; rfl

theorem isLinked_of_children_eq_nil (ht : t.children = []) (hc : t.content.children = []) :
    t.IsLinked := by
  intro s hs
  rw [subtrees_eq, ht, List.flatMap_nil, List.mem_singleton] at hs
  subst hs
  rw [ht, hc]
  simp

end Tree

namespace Site

mutual

/-- The tree of a section, with its topmost node under the key `next` and the others behind it. -/
def tree (site : Site) (parentId : String) (next : Key) : Section → Tree
  | .mk heading assertions nested =>
    let node := site.headingNode parentId heading
    let own := Tree.leaves (next + 1) (assertions.map (site.assertionNode node.id heading.tags))
    adopt next node (own ++ forest site node.id (next + 1 + assertions.length) nested)

def forest (site : Site) (parentId : String) (next : Key) : List Section → List Tree
  | [] => []
  | s :: rest =>
    let t := tree site parentId next s
    t :: forest site parentId (next + t.size) rest

end

end Site

namespace Hierarchy

/-- A table that was extended by trees, behind the nodes that were there. -/
structure Adds (h h' : Hierarchy) (ts : List Tree) : Prop where
  roots : h'.roots = h.roots
  size : h'.nodes.size = h.nodes.size + Tree.sizeAll ts
  old : ∀ k < h.nodes.size, h'.node? k = h.node? k
  keys : ts.flatMap Tree.keys = List.range' h.nodes.size (Tree.sizeAll ts)
  stands : ∀ t ∈ ts, t.StandsIn h'
  linked : ∀ t ∈ ts, t.IsLinked

namespace Adds

variable {h h' h₁ h₂ : Hierarchy} {ts us cs : List Tree}

theorem refl (h : Hierarchy) : Adds h h [] where
  roots := rfl
  size := rfl
  old _ _ := rfl
  keys := rfl
  stands := by simp
  linked := by simp

theorem trans (hts : Adds h h₁ ts) (hus : Adds h₁ h₂ us) : Adds h h₂ (ts ++ us) where
  roots := hus.roots.trans hts.roots
  size := by
    rw [hus.size, hts.size, Tree.sizeAll_append, Nat.add_assoc]
  old k hk := (hus.old k (by rw [hts.size]; omega)).trans (hts.old k hk)
  keys := by
    rw [List.flatMap_append, hts.keys, hus.keys, hts.size, Tree.sizeAll_append,
      List.range'_append_1]
  stands t ht := by
    rcases List.mem_append.1 ht with ht | ht
    · exact (hts.stands t ht).congr fun k hk => hus.old k ((hts.stands t ht).key_lt hk)
    · exact hus.stands t ht
  linked t ht := by
    rcases List.mem_append.1 ht with ht | ht
    · exact hts.linked t ht
    · exact hus.linked t ht

theorem size_le {t : Tree} {k : Key} (hts : Adds h h' ts) (ht : t ∈ ts) (hk : k ∈ t.keys) :
    h.nodes.size ≤ k := by
  have hm : k ∈ ts.flatMap Tree.keys := List.mem_flatMap.2 ⟨t, ht, hk⟩
  rw [hts.keys, List.mem_range'_1] at hm
  exact hm.1

theorem key_notMem {k : Key} (hts : Adds h h' ts) (hk : k < h.nodes.size) :
    k ∉ ts.map Tree.key := by
  intro hm
  obtain ⟨t, ht, rfl⟩ := List.mem_map.1 hm
  exact Nat.not_lt.2 (hts.size_le ht (Tree.key_mem_keys t.mem_subtrees_self)) hk

theorem adopt {node : Node} (hcs : Adds (h.create node).2 h₂ cs)
    (hids : (cs.map fun c => c.content.id).Nodup) :
    Adds h (h₂.setChildren h.nodes.size (cs.map Tree.key)) [Tree.adopt h.nodes.size node cs] := by
  have hsize : h.nodes.size < (h.create node).2.nodes.size := by
    rw [create_size]
    exact Nat.lt_succ_self _
  have hnode : h₂.node? h.nodes.size = some node :=
    (hcs.old _ hsize).trans (node?_create_self h node)
  have hkeys : h.nodes.size :: cs.flatMap Tree.keys =
      List.range' h.nodes.size (Tree.sizeAll cs + 1) := by
    rw [hcs.keys, create_size, List.range'_succ]
  constructor
  · rw [setChildren_roots, hcs.roots, create_roots]
  · rw [setChildren_size, hcs.size, create_size, Tree.sizeAll_singleton,
      Tree.size_adopt]
    omega
  · intro k hk
    have hk' := Nat.lt_trans hk hsize
    rw [node?_setChildren (Tree.StandsIn.nodup_id? hcs.stands hids) (hcs.key_notMem hsize),
      if_neg (Nat.ne_of_lt hk), if_neg (hcs.key_notMem hk'), hcs.old k hk', node?_create_lt hk]
  · rw [List.flatMap_singleton, Tree.sizeAll_singleton, Tree.size_adopt,
      Tree.keys_adopt, hkeys]
  · intro t ht
    rw [List.mem_singleton.1 ht]
    apply Tree.StandsIn.adopt hnode hcs.stands _ hids
    rw [hkeys]
    exact List.nodup_range'
  · intro t ht
    rw [List.mem_singleton.1 ht]
    exact Tree.isLinked_adopt hcs.linked

theorem create (h : Hierarchy) {node : Node} (hn : node.children = []) :
    Adds h (h.create node).2 [.node h.nodes.size node []] where
  roots := rfl
  size := create_size h node
  old _ hk := node?_create_lt hk
  keys := rfl
  stands t ht := by
    rw [List.mem_singleton.1 ht]
    intro e he
    rw [Tree.preorder_eq, Tree.children, List.flatMap_nil, List.mem_singleton] at he
    rw [he]
    exact node?_create_self h node
  linked t ht := by
    rw [List.mem_singleton.1 ht]
    exact Tree.isLinked_of_children_eq_nil rfl hn

theorem createAll (h : Hierarchy) {nodes : List Node} (hn : ∀ n ∈ nodes, n.children = []) :
    Adds h (h.createAll nodes).2 (Tree.leaves h.nodes.size nodes) := by
  induction nodes generalizing h with
  | nil => exact refl h
  | cons first rest ih =>
    have hfirst := create h (hn first List.mem_cons_self)
    have hrest := ih (h.create first).2 fun n hm => hn n (List.mem_cons_of_mem _ hm)
    rw [create_size] at hrest
    exact hfirst.trans hrest

end Adds

variable {site : Site} {parentId : String}

theorem createAll_keys_eq (h : Hierarchy) (nodes : List Node) :
    (h.createAll nodes).1 = (Tree.leaves h.nodes.size nodes).map Tree.key := by
  rw [createAll_keys, Tree.map_key_leaves]

theorem map_id_forest (site : Site) (parentId : String) (next : Key) (sections : List Section) :
    ((site.forest parentId next sections).map fun t => t.content.id) =
      sections.map fun s => below site.id s.heading.name := by
  induction sections generalizing next with
  | nil => rw [Site.forest]; rfl
  | cons s rest ih =>
    rw [Site.forest, List.map_cons, List.map_cons, ih]
    cases s
    rfl

theorem map_id_leaves (next : Key) (parent : String) (tags : List String)
    (assertions : List Assertion) :
    ((Tree.leaves next (assertions.map (site.assertionNode parent tags))).map
        fun t => t.content.id) =
      assertions.map fun a => below parent (positionText a.range.start) := by
  have he := Tree.map_content_leaves next (assertions.map (site.assertionNode parent tags))
  rw [← Function.comp_def (f := Node.id) (g := Tree.content), ← List.map_map, he, List.map_map]
  apply List.map_congr_left
  intro a _
  exact assertionId_eq parent a

theorem nodup_ids_forest {sections : List Section}
    (hb : Block.AreProper (sections.flatMap Section.blocks)) (next : Key) :
    ((site.forest parentId next sections).map fun t => t.content.id).Nodup := by
  rw [map_id_forest, ← Function.comp_def (f := below site.id), ← List.map_map]
  apply List.Nodup.map fun _ _ => below_inj.1
  have hsub : (sections.map fun s => s.heading.name).Sublist
      ((sections.flatMap Section.blocks).map fun b => b.heading.name) := by
    clear hb
    induction sections with
    | nil => exact List.Sublist.refl _
    | cons s rest ih =>
      rw [List.flatMap_cons, Section.blocks_eq, List.cons_append, List.map_cons, List.map_cons,
        List.map_append]
      exact (ih.trans (List.sublist_append_right _ _)).cons_cons _
  exact hb.nodup_names.sublist hsub

theorem nodup_ids_children {heading : Heading} {assertions : List Assertion}
    {nested : List Section} (hb : Block.AreProper (Section.mk heading assertions nested).blocks)
    (next next' : Key) (tags : List String) :
    ((Tree.leaves next (assertions.map (site.assertionNode (below site.id heading.name) tags)) ++
      site.forest parentId next' nested).map fun t => t.content.id).Nodup := by
  rw [Section.blocks_eq] at hb
  have hown := hb.isProper _ List.mem_cons_self
  have hnested : Block.AreProper (nested.flatMap Section.blocks) :=
    hb.sublist (List.sublist_cons_self _ _)
  rw [List.map_append, List.nodup_append]
  refine ⟨?_, nodup_ids_forest hnested next', ?_⟩
  · rw [map_id_leaves, ← Function.comp_def (f := below _) (g := fun a => positionText _),
      ← List.map_map, ← Function.comp_def (f := positionText), ← List.map_map]
    apply List.Nodup.map fun _ _ => below_inj.1
    apply List.Nodup.map fun _ _ => positionText_inj.1
    exact hown.nodup_starts
  · rw [map_id_leaves, map_id_forest]
    intro a ha b hb' he
    obtain ⟨x, _, rfl⟩ := List.mem_map.1 ha
    obtain ⟨s, hs, rfl⟩ := List.mem_map.1 hb'
    have hstep : IsStep s.heading.name := by
      apply (hnested.isProper ⟨s.heading, s.assertions⟩ _).isStep
      refine List.mem_flatMap.2 ⟨s, hs, ?_⟩
      rw [Section.blocks_eq]
      exact List.mem_cons_self
    exact below_ne_below_below hstep he.symm

theorem plantAll_cons (h : Hierarchy) (s : Section) (rest : List Section) :
    h.plantAll site parentId (s :: rest) =
      ((h.plant site parentId s).1 :: ((h.plant site parentId s).2.plantAll site parentId rest).1,
        ((h.plant site parentId s).2.plantAll site parentId rest).2) := by
  rw [plantAll]

theorem tree_key (site : Site) (parentId : String) (next : Key) (s : Section) :
    (site.tree parentId next s).key = next := by
  cases s
  rfl

theorem plantAll_adds_of {sections : List Section}
    (hplant : ∀ s ∈ sections, ∀ (h : Hierarchy) (parentId : String), Block.AreProper s.blocks →
      (h.plant site parentId s).1 = h.nodes.size ∧
        Adds h (h.plant site parentId s).2 [site.tree parentId h.nodes.size s])
    (h : Hierarchy) (parentId : String)
    (hb : Block.AreProper (sections.flatMap Section.blocks)) :
    (h.plantAll site parentId sections).1 =
        (site.forest parentId h.nodes.size sections).map Tree.key ∧
      Adds h (h.plantAll site parentId sections).2
        (site.forest parentId h.nodes.size sections) := by
  induction sections generalizing h with
  | nil =>
    rw [plantAll, Site.forest]
    exact ⟨rfl, .refl h⟩
  | cons s rest ih =>
    rw [List.flatMap_cons] at hb
    obtain ⟨hkey, hadds⟩ := hplant s List.mem_cons_self h parentId
      (hb.sublist (List.sublist_append_left _ _))
    obtain ⟨hkeys, hrest⟩ := ih (fun s hs => hplant s (List.mem_cons_of_mem _ hs))
      (h.plant site parentId s).2 (hb.sublist (List.sublist_append_right _ _))
    rw [hadds.size, Tree.sizeAll_singleton] at hkeys hrest
    rw [plantAll_cons, Site.forest]
    refine ⟨?_, hadds.trans hrest⟩
    rw [List.map_cons, tree_key, hkey, hkeys]

/-- Planting a section adds its tree. -/
theorem plant_adds (s : Section) (h : Hierarchy) (parentId : String)
    (hb : Block.AreProper s.blocks) :
    (h.plant site parentId s).1 = h.nodes.size ∧
      Adds h (h.plant site parentId s).2 [site.tree parentId h.nodes.size s] := by
  induction s using Section.induct generalizing h parentId with
  | mk heading assertions nested ih =>
    refine ⟨by rw [plant]; rfl, ?_⟩
    let node := site.headingNode parentId heading
    let own := assertions.map (site.assertionNode node.id heading.tags)
    let h₁ := ((h.create node).2.createAll own).2
    have hown := Adds.createAll (h.create node).2 (show ∀ n ∈ own, n.children = [] from
      List.forall_mem_map.2 fun _ _ => rfl)
    have hsize : h₁.nodes.size = h.nodes.size + 1 + assertions.length := by
      rw [createAll_size, create_size, List.length_map]
    have hnested := plantAll_adds_of ih h₁ node.id (by
      rw [Section.blocks_eq] at hb
      exact hb.sublist (List.sublist_cons_self _ _))
    rw [hsize] at hnested
    rw [create_size] at hown
    have hadopt := (hown.trans hnested.2).adopt (nodup_ids_children hb _ _ _)
    rw [plant, Site.tree]
    have hkeys : ((h.create node).2.createAll own).1 ++ (h₁.plantAll site node.id nested).1 =
        (Tree.leaves (h.nodes.size + 1) own ++
          site.forest node.id (h.nodes.size + 1 + assertions.length) nested).map Tree.key := by
      rw [List.map_append, ← hnested.1, createAll_keys_eq, create_size]
    rw [← hkeys] at hadopt
    exact hadopt

theorem plantAll_adds (site : Site) (sections : List Section) (h : Hierarchy) (parentId : String)
    (hb : Block.AreProper (sections.flatMap Section.blocks)) :
    (h.plantAll site parentId sections).1 =
        (site.forest parentId h.nodes.size sections).map Tree.key ∧
      Adds h (h.plantAll site parentId sections).2 (site.forest parentId h.nodes.size sections) :=
  plantAll_adds_of (fun s _ => plant_adds s) h parentId hb

end Hierarchy

end SuiteAtlas
