import Mathlib.Data.List.Perm.Subperm
import SuiteAtlas.Proofs.Hierarchy.Table
import SuiteAtlas.Proofs.Hierarchy.Tree

namespace SuiteAtlas

open SuiteAtlas.Tree (adopt graft)

variable {h h' : Hierarchy} {t s old : Tree} {ts cs : List Tree} {key k : Key} {content : Node}

def Tree.StandsIn (t : Tree) (h : Hierarchy) : Prop :=
  ∀ e ∈ t.preorder, h.node? e.key = some e.content

namespace Tree.StandsIn

theorem node? (ht : t.StandsIn h) (hs : s ∈ t.subtrees) : h.node? s.key = some s.content := by
  apply ht s.entry
  rw [preorder_eq_map_subtrees]
  exact List.mem_map_of_mem hs

theorem of_mem (ht : t.StandsIn h) (hs : s ∈ t.subtrees) : s.StandsIn h := by
  intro e he
  rw [preorder_eq_map_subtrees] at he
  obtain ⟨r, hr, rfl⟩ := List.mem_map.1 he
  exact ht.node? (mem_subtrees_trans hs hr)

theorem key_lt (ht : t.StandsIn h) (hk : k ∈ t.keys) : k < h.nodes.size := by
  obtain ⟨e, he, rfl⟩ := List.mem_map.1 hk
  exact Hierarchy.node?_lt (ht e he)

theorem congr (ht : t.StandsIn h) (hk : ∀ k ∈ t.keys, h'.node? k = h.node? k) :
    t.StandsIn h' :=
  fun e he => (hk e.key (List.mem_map_of_mem he)).trans (ht e he)

theorem size_le (ht : t.StandsIn h) (hn : t.keys.Nodup) : t.size ≤ h.nodes.size := by
  have hsub : t.keys ⊆ List.range h.nodes.size :=
    fun k hk => List.mem_range.2 (ht.key_lt hk)
  have hle := (List.subperm_of_subset hn hsub).length_le
  rwa [List.length_range, keys, List.length_map, ← size_eq_length_preorder] at hle

/-- A linked tree is what is read from its key, if the depth of reading allows. -/
theorem treeAt_eq (ht : t.StandsIn h) (hl : t.IsLinked) {depth : Nat} (hd : t.size ≤ depth) :
    h.treeAt depth t.key = some t := by
  induction t using induct generalizing depth with
  | node key content children ih =>
    cases depth with
    | zero => simp [size] at hd
    | succ depth =>
      have hnode : h.node? key = some content := ht.node? (mem_subtrees_self _)
      have hlist : content.children = children.map Tree.key := (hl _ (mem_subtrees_self _)).1
      have hread : ∀ c ∈ children, h.treeAt depth c.key = some c := by
        intro c hc
        apply ih c hc (ht.of_mem (mem_subtrees_child hc)) (hl.child hc)
        have hle := size_le_sizeAll hc
        rw [size] at hd
        omega
      have hall : content.children.filterMap (h.treeAt depth) = children := by
        rw [hlist, List.filterMap_map, Function.comp_def, List.filterMap_congr hread,
          List.filterMap_some]
      change (h.node? key).map _ = _
      rw [hnode, Option.map_some, hall]
      rfl

theorem tree?_eq (ht : t.StandsIn h) (hl : t.IsLinked) (hn : t.keys.Nodup) :
    h.tree? t.key = some t :=
  ht.treeAt_eq hl (ht.size_le hn)

theorem nodup_id? (hcs : ∀ c ∈ cs, c.StandsIn h) (hids : (cs.map fun c => c.content.id).Nodup) :
    ((cs.map Tree.key).map h.id?).Nodup := by
  have he : (cs.map Tree.key).map h.id? = (cs.map fun c => c.content.id).map some := by
    rw [List.map_map, List.map_map]
    apply List.map_congr_left
    intro c hc
    exact congrArg (Option.map Node.id) ((hcs c hc).node? (mem_subtrees_self c))
  rw [he]
  exact hids.map fun _ _ => Option.some.inj

theorem adopt (hkey : h.node? key = some content) (hcs : ∀ c ∈ cs, c.StandsIn h)
    (hn : (key :: cs.flatMap keys).Nodup) (hids : (cs.map fun c => c.content.id).Nodup) :
    (adopt key content cs).StandsIn (h.setChildren key (cs.map Tree.key)) := by
  rw [List.nodup_cons] at hn
  have hmem : ∀ c : Tree, c.key ∈ c.keys := fun c => key_mem_keys (mem_subtrees_self c)
  have hne : ∀ c ∈ cs, ∀ k ∈ c.keys, k ≠ key := by
    rintro c hc k hk rfl
    exact hn.1 (List.mem_flatMap.2 ⟨c, hc, hk⟩)
  have hkey' : key ∉ cs.map Tree.key := by
    intro hk
    obtain ⟨c, hc, he⟩ := List.mem_map.1 hk
    exact hne c hc _ (hmem c) he
  intro e he
  rw [preorder_eq_map_subtrees] at he
  obtain ⟨s, hs, rfl⟩ := List.mem_map.1 he
  change (h.setChildren key (cs.map Tree.key)).node? s.key = some s.content
  rw [Hierarchy.node?_setChildren (nodup_id? hcs hids) hkey']
  rcases mem_subtrees_adopt hs with rfl | ⟨c, hc, hs⟩
  · change (if key = key then (h.node? key).map _ else _) = _
    rw [if_pos rfl, hkey]
    rfl
  rcases mem_subtrees_iff.1 hs with rfl | ⟨d, hd, hsd⟩
  · rw [withParent_key, if_neg (hne c hc _ (hmem c)), if_pos (List.mem_map_of_mem hc),
      (hcs c hc).node? (mem_subtrees_self c), withParent_content]
    rfl
  · -- a node further down is no child of the adopting one, so it stays as it was
    rw [withParent_children] at hd
    have hsc : s ∈ c.subtrees := mem_subtrees_iff.2 (.inr ⟨d, hd, hsd⟩)
    have hchild : s.key ∉ cs.map Tree.key := by
      intro hk
      obtain ⟨b, hb, he⟩ := List.mem_map.1 hk
      have hbc := eq_of_mem_keys hn.2 hb hc (he ▸ hmem b) (key_mem_keys hsc)
      subst hbc
      apply key_not_mem_keys ((List.nodup_flatMap.1 hn.2).1 b hb) hd
      rw [he]
      exact key_mem_keys hsd
    rw [if_neg (hne c hc _ (key_mem_keys hsc)), if_neg hchild]
    exact (hcs c hc).node? hsc

end Tree.StandsIn

theorem Hierarchy.node?_setChildren_of_ne (hcs : ∀ c ∈ cs, c.StandsIn h)
    (hids : (cs.map fun c => c.content.id).Nodup) (hkey : key ∉ cs.map Tree.key) (hne : k ≠ key)
    (hold : ∀ c ∈ cs, c.key = k → c.content.parent = some key) :
    (h.setChildren key (cs.map Tree.key)).node? k = h.node? k := by
  rw [node?_setChildren (Tree.StandsIn.nodup_id? hcs hids) hkey, if_neg hne]
  split
  next hm =>
    obtain ⟨c, hc, rfl⟩ := List.mem_map.1 hm
    rw [(hcs c hc).node? c.mem_subtrees_self, Option.map_some, ← hold c hc rfl]
    rfl
  next => rfl

/-- A stretch of distinct things is exchanged for distinct ones that are not among the others. -/
theorem nodup_exchange {α : Type} {before middle new after : List α}
    (h : (before ++ middle ++ after).Nodup) (hn : new.Nodup)
    (hk : ∀ a ∈ new, a ∈ middle ∨ a ∉ before ++ middle ++ after) :
    (before ++ new ++ after).Nodup := by
  grind [List.nodup_append]

/-- The trees of a hierarchy, root by root: nodes that no two of them share, and no others are
reached from its roots. -/
structure Hierarchy.Holds (h : Hierarchy) (ts : List Tree) : Prop where
  roots : h.roots = ts.map Tree.key
  stands : ∀ t ∈ ts, t.StandsIn h
  linked : ∀ t ∈ ts, t.IsLinked
  nodup : (ts.flatMap Tree.keys).Nodup

namespace Hierarchy.Holds

theorem keys_nodup (hts : h.Holds ts) (ht : t ∈ ts) : t.keys.Nodup :=
  (List.nodup_flatMap.1 hts.nodup).1 t ht

theorem key_lt (hts : h.Holds ts) (hk : k ∈ ts.flatMap Tree.keys) : k < h.nodes.size := by
  obtain ⟨t, ht, hk⟩ := List.mem_flatMap.1 hk
  exact (hts.stands t ht).key_lt hk

theorem tree?_eq (hts : h.Holds ts) (ht : t ∈ ts) : h.tree? t.key = some t :=
  (hts.stands t ht).tree?_eq (hts.linked t ht) (hts.keys_nodup ht)

theorem rootTrees_eq (hts : h.Holds ts) : h.rootTrees = ts := by
  rw [rootTrees, trees, hts.roots, List.filterMap_map, Function.comp_def,
    List.filterMap_congr fun t ht => hts.tree?_eq ht, List.filterMap_some]

theorem congr (hts : h.Holds ts) (hroots : h'.roots = h.roots)
    (hk : ∀ k ∈ ts.flatMap Tree.keys, h'.node? k = h.node? k) : h'.Holds ts where
  roots := hroots.trans hts.roots
  stands t ht := (hts.stands t ht).congr fun k hkt => hk k (List.mem_flatMap.2 ⟨t, ht, hkt⟩)
  linked := hts.linked
  nodup := hts.nodup

theorem nodup_map_graft {new : Tree} (hts : h.Holds ts) (ht : t ∈ ts) (ho : old ∈ t.subtrees)
    (hn : new.keys.Nodup) (hnew : ∀ k ∈ new.keys, k ∈ old.keys ∨ k ∉ ts.flatMap Tree.keys) :
    ((ts.map (graft old.key new)).flatMap Tree.keys).Nodup := by
  obtain ⟨before, after, hb, ha⟩ := Tree.preorder_map_graft hts.nodup ht (Tree.key_mem_keys ho)
    (Tree.preorder_graft new (hts.keys_nodup ht) ho)
  have hkeys := hts.nodup
  rw [Tree.flatMap_keys, hb, List.map_append, List.map_append] at hkeys
  rw [Tree.flatMap_keys, hb, List.map_append, List.map_append] at hnew
  rw [Tree.flatMap_keys, ha, List.map_append, List.map_append]
  exact nodup_exchange hkeys hn hnew

end Hierarchy.Holds

/-- Trees that a node inside a forest may be given as its children: each of them either is one
already, or shares no node with the forest. -/
structure Hierarchy.MayAdopt (h : Hierarchy) (ts : List Tree) (old : Tree) (cs : List Tree) :
    Prop where
  stands : ∀ c ∈ cs, c.StandsIn h
  linked : ∀ c ∈ cs, c.IsLinked
  nodup_keys : (cs.flatMap Tree.keys).Nodup
  nodup_ids : (cs.map fun c => c.content.id).Nodup
  isNew : ∀ c ∈ cs, c ∈ old.children ∨ ∀ k ∈ c.keys, k ∉ ts.flatMap Tree.keys

namespace Hierarchy.MayAdopt

variable (hcs : h.MayAdopt ts old cs) (hts : h.Holds ts) (ht : t ∈ ts) (ho : old ∈ t.subtrees)

include hcs hts ht ho

theorem mem_keys (hk : k ∈ cs.flatMap Tree.keys) :
    k ∈ old.keys ∧ k ≠ old.key ∨ k ∉ ts.flatMap Tree.keys := by
  obtain ⟨c, hc, hkc⟩ := List.mem_flatMap.1 hk
  rcases hcs.isNew c hc with hchild | hnew
  · refine .inl ⟨(Tree.keys_sublist (Tree.mem_subtrees_child hchild)).subset hkc, ?_⟩
    rintro rfl
    have hn := (hts.keys_nodup ht).sublist (Tree.keys_sublist ho)
    exact Tree.key_not_mem_keys hn hchild hkc
  · exact .inr (hnew k hkc)

theorem key_notMem_keys : old.key ∉ cs.flatMap Tree.keys := by
  intro hk
  rcases hcs.mem_keys hts ht ho hk with ⟨_, hne⟩ | hnew
  · exact hne rfl
  · exact hnew (List.mem_flatMap.2 ⟨t, ht, Tree.key_mem_keys ho⟩)

theorem key_notMem : old.key ∉ cs.map Tree.key := by
  intro hm
  obtain ⟨c, hc, he⟩ := List.mem_map.1 hm
  have hk := Tree.key_mem_keys c.mem_subtrees_self
  exact hcs.key_notMem_keys hts ht ho (List.mem_flatMap.2 ⟨c, hc, he ▸ hk⟩)

/-- Giving a node its children changes no other node of the forest. -/
theorem node?_of_ne (hk : k ∈ ts.flatMap Tree.keys) (hne : k ≠ old.key) :
    (h.setChildren old.key (cs.map Tree.key)).node? k = h.node? k := by
  apply node?_setChildren_of_ne hcs.stands hcs.nodup_ids (hcs.key_notMem hts ht ho) hne
  rintro c hc rfl
  -- a child that stays has the parent that it is given
  rcases hcs.isNew c hc with hchild | hnew
  · exact (hts.linked t ht old ho).2 c hchild
  · exact absurd hk (hnew _ (Tree.key_mem_keys c.mem_subtrees_self))

theorem node?_self : (h.setChildren old.key (cs.map Tree.key)).node? old.key =
    some (old.content.withChildren (cs.map Tree.key)) := by
  rw [node?_setChildren (Tree.StandsIn.nodup_id? hcs.stands hcs.nodup_ids)
    (hcs.key_notMem hts ht ho), if_pos rfl, (hts.stands t ht).node? ho]
  rfl

theorem keys_adopt_nodup : (old.key :: cs.flatMap Tree.keys).Nodup :=
  List.nodup_cons.2 ⟨hcs.key_notMem_keys hts ht ho, hcs.nodup_keys⟩

/-- The forest stays one, with the node and its new children in the place of the tree. -/
theorem holds : (h.setChildren old.key (cs.map Tree.key)).Holds
    (ts.map (graft old.key (adopt old.key old.content cs))) := by
  have hkeys := hcs.keys_adopt_nodup hts ht ho
  have hstands := Tree.StandsIn.adopt ((hts.stands t ht).node? ho) hcs.stands hkeys hcs.nodup_ids
  have hadopt : (adopt old.key old.content cs).key = old.key := rfl
  constructor
  · rw [setChildren_roots, hts.roots, List.map_map]
    apply List.map_congr_left
    intro t _
    exact (Tree.graft_key t hadopt).symm
  · intro t' ht' e he
    obtain ⟨r, hr, rfl⟩ := List.mem_map.1 ht'
    rw [Tree.preorder_eq_map_subtrees] at he
    obtain ⟨s, hs, rfl⟩ := List.mem_map.1 he
    rcases Tree.mem_subtrees_graft hs with hs | ⟨q, hq, hne, rfl⟩
    · exact hstands.node? hs
    · rw [Tree.graft_of_ne hne]
      have hk := List.mem_flatMap.2 ⟨r, hr, Tree.key_mem_keys hq⟩
      exact (hcs.node?_of_ne hts ht ho hk hne).trans ((hts.stands r hr).node? hq)
  · intro t' ht'
    obtain ⟨r, hr, rfl⟩ := List.mem_map.1 ht'
    apply (hts.linked r hr).graft (Tree.isLinked_adopt hcs.linked) hadopt
    intro s hs hk
    have hnode := (hts.stands r hr).node? hs
    rw [hk, (hts.stands t ht).node? ho, Option.some.injEq] at hnode
    rw [← hnode]
    rfl
  · apply hts.nodup_map_graft ht ho
    · rw [Tree.keys_adopt]
      exact hkeys
    · intro k hk
      rw [Tree.keys_adopt, List.mem_cons] at hk
      rcases hk with rfl | hk
      · exact .inl (Tree.key_mem_keys old.mem_subtrees_self)
      · exact (hcs.mem_keys hts ht ho hk).imp And.left id

end Hierarchy.MayAdopt

end SuiteAtlas
