import SuiteAtlas.Proofs.Session.Change
import SuiteAtlas.Proofs.Session.Index

namespace SuiteAtlas

open SuiteAtlas.Tree (leaves)

namespace Tree

/-- The topmost node of a tree with the headings that are reached through headings only. -/
def skeleton : Tree → Tree
  | .node key content children =>
    .node key (content.withChildren []) ((children.map skeleton).filter isHeading)

variable {t : Tree} {ts : List Tree}

@[simp] theorem isHeading_skeleton (t : Tree) : t.skeleton.isHeading = t.isHeading := by
  cases t
  rw [skeleton]
  rfl

@[simp] theorem face_skeleton (t : Tree) : t.skeleton.face = t.face := by
  cases t
  rw [skeleton]
  rfl

theorem facesIn_filter_isHeading (ts : List Tree) : facesIn (ts.filter isHeading) = facesIn ts := by
  induction ts with
  | nil => rfl
  | cons t ts ih =>
    rw [List.filter_cons]
    split
    next h => rw [facesIn, List.flatMap_cons, ← facesIn, ih]; rfl
    next h => rw [ih, facesIn, facesIn, List.flatMap_cons, if_neg h, List.nil_append]

theorem filter_isHeading_append {own nested : List Tree} (hown : ∀ a ∈ own, a.isAssertion = true)
    (hnested : ∀ s ∈ nested, s.isHeading = true) : (own ++ nested).filter isHeading = nested := by
  have hnone : own.filter isHeading = [] := by
    rw [List.filter_eq_nil_iff]
    intro a ha
    rw [not_isHeading_of_isAssertion (hown a ha)]
    exact Bool.false_ne_true
  rw [List.filter_append, hnone, List.filter_eq_self.2 hnested, List.nil_append]

@[simp] theorem faces_skeleton (t : Tree) : t.skeleton.faces = t.faces := by
  induction t using induct with
  | node key content children ih =>
    rw [skeleton, faces_eq, faces_eq]
    change facesIn ((children.map skeleton).filter isHeading) = facesIn children
    rw [facesIn_filter_isHeading, facesIn, List.flatMap_map, facesIn]
    apply List.flatMap_congr
    intro c hc
    rw [isHeading_skeleton, face_skeleton, ih c hc]

end Tree

namespace Hierarchy

/-- The node of a key apart from its children. -/
def face? (h : Hierarchy) (key : Key) : Option Node :=
  (h.node? key).map (Node.withChildren [])

def nestedAt (h : Hierarchy) (key : Key) : List Key :=
  (((h.node? key).map Node.children).getD []).filter fun c => (h.face? c).any Node.isHeading

/-- Nodes keep all but their children, and of these the headings. -/
structure Keeps (h h' : Hierarchy) : Prop where
  roots : h'.roots = h.roots
  size_le : h.nodes.size ≤ h'.nodes.size
  face?_eq : ∀ k < h.nodes.size, h'.face? k = h.face? k
  nestedAt_eq : ∀ k < h.nodes.size, h'.nestedAt k = h.nestedAt k

variable {h h' h₁ : Hierarchy} {ts : List Tree} {t heading : Tree} {key k c : Key} {node : Node}
  {nodes : List Node}

theorem bind_parent_face? (h : Hierarchy) (k : Key) :
    (h.face? k).bind Node.parent = (h.node? k).bind Node.parent := by
  rw [face?, Option.bind_map]
  rfl

namespace Ascends

theorem of_mem_nestedAt (ha : h.Ascends) (hc : c ∈ h.nestedAt k) :
    k < c ∧ c < h.nodes.size := by
  cases hnode : h.node? k with
  | none =>
    rw [nestedAt, hnode] at hc
    cases hc
  | some node =>
    rw [nestedAt, hnode] at hc
    exact ha.children hnode c (List.mem_of_mem_filter hc)

theorem skeleton_tree? (ha : h.Ascends) (k : Key) :
    (h.tree? k).map Tree.skeleton = (h.face? k).map fun node =>
      .node k node ((h.nestedAt k).filterMap fun c => (h.tree? c).map Tree.skeleton) := by
  have hsame (c : Key) : ((h.tree? c).map Tree.skeleton).filter Tree.isHeading =
      if (h.face? c).any Node.isHeading then (h.tree? c).map Tree.skeleton else none := by
    rw [ha.tree?_eq c, face?]
    cases h.node? c with
    | none => rfl
    | some node =>
      change Option.filter Tree.isHeading (some (Tree.skeleton _)) = if node.isHeading then _ else _
      rw [Option.filter_some, Tree.isHeading_skeleton]
      rfl
  rw [ha.tree?_eq k, face?, nestedAt]
  cases h.node? k with
  | none => rfl
  | some node =>
    rw [Option.map_some, Option.map_some, Option.map_some, Option.map_some, Option.map_some,
      Option.getD_some, Tree.skeleton, List.map_filterMap, List.filter_filterMap,
      List.filterMap_filter]
    congr 2
    exact List.filterMap_congr fun c _ => hsame c

end Ascends

namespace Keeps

theorem refl (h : Hierarchy) : h.Keeps h :=
  ⟨rfl, Nat.le_refl _, fun _ _ => rfl, fun _ _ => rfl⟩

theorem trans (hk : h.Keeps h₁) (hk' : h₁.Keeps h') : h.Keeps h' where
  roots := hk'.roots.trans hk.roots
  size_le := Nat.le_trans hk.size_le hk'.size_le
  face?_eq k hlt :=
    (hk'.face?_eq k (Nat.lt_of_lt_of_le hlt hk.size_le)).trans (hk.face?_eq k hlt)
  nestedAt_eq k hlt :=
    (hk'.nestedAt_eq k (Nat.lt_of_lt_of_le hlt hk.size_le)).trans (hk.nestedAt_eq k hlt)

theorem skeleton_tree? (hk : h.Keeps h') (ha : h.Ascends) (ha' : h'.Ascends)
    (hlt : k < h.nodes.size) :
    (h'.tree? k).map Tree.skeleton = (h.tree? k).map Tree.skeleton := by
  -- nested headings have greater keys, so the induction goes down from the size of the table
  induction hm : h.nodes.size - k using Nat.strong_induction_on generalizing k with
  | h m ih =>
    rw [ha.skeleton_tree?, ha'.skeleton_tree?, hk.face?_eq k hlt, hk.nestedAt_eq k hlt]
    congr 1
    funext node
    congr 1
    apply List.filterMap_congr
    intro c hc
    obtain ⟨hkc, hcs⟩ := ha.of_mem_nestedAt hc
    exact ih _ (hm ▸ Nat.sub_lt_sub_left hlt hkc) hcs rfl

theorem map_face_tree? (hk : h.Keeps h') (ha : h.Ascends) (ha' : h'.Ascends)
    (hlt : k < h.nodes.size) : (h'.tree? k).map Tree.face = (h.tree? k).map Tree.face := by
  have hskeleton := congrArg (Option.map Tree.face) (hk.skeleton_tree? ha ha' hlt)
  rw [Option.map_map, Option.map_map] at hskeleton
  simpa only [Function.comp_def, Tree.face_skeleton] using hskeleton

theorem map_faces_tree? (hk : h.Keeps h') (ha : h.Ascends) (ha' : h'.Ascends)
    (hlt : k < h.nodes.size) : (h'.tree? k).map Tree.faces = (h.tree? k).map Tree.faces := by
  have hskeleton := congrArg (Option.map Tree.faces) (hk.skeleton_tree? ha ha' hlt)
  rw [Option.map_map, Option.map_map] at hskeleton
  simpa only [Function.comp_def, Tree.faces_skeleton] using hskeleton

theorem map_skeleton_rootTrees (hk : h.Keeps h') (ha : h.Ascends) (ha' : h'.Ascends)
    (hts : h.Holds ts) :
    h'.rootTrees.map Tree.skeleton = h.rootTrees.map Tree.skeleton := by
  rw [rootTrees, rootTrees, trees, trees, hk.roots, List.map_filterMap, List.map_filterMap]
  apply List.filterMap_congr
  intro r hr
  rw [hts.roots] at hr
  obtain ⟨t, ht, rfl⟩ := List.mem_map.1 hr
  exact hk.skeleton_tree? ha ha' ((hts.stands t ht).key_lt (Tree.key_mem_keys t.mem_subtrees_self))

theorem enclosingTest_eq (hk : h.Keeps h') (ha : h.Ascends) (hlt : k < h.nodes.size) :
    h'.enclosingTest k = h.enclosingTest k := by
  apply ha.climb_eq (Nat.le_of_lt hlt) (Nat.le_of_lt (Nat.lt_of_lt_of_le hlt hk.size_le))
  intro j hj
  rw [← bind_parent_face?, hk.face?_eq j (Nat.lt_of_le_of_lt hj hlt), bind_parent_face?]

end Keeps

theorem nestedAt_of_standsIn (ht : t.StandsIn h) (hl : t.IsLinked) :
    h.nestedAt t.key = (t.children.filter Tree.isHeading).map Tree.key := by
  have hsame : ∀ c ∈ t.children,
      ((fun k => (h.face? k).any Node.isHeading) ∘ Tree.key) c = c.isHeading := by
    intro c hc
    rw [Function.comp_apply, face?, ht.node? (Tree.mem_subtrees_child hc)]
    rfl
  rw [nestedAt, ht.node? t.mem_subtrees_self, Option.map_some, Option.getD_some,
    (hl t t.mem_subtrees_self).1, List.filter_map, List.filter_congr hsame]

namespace HoldsFiles

open Reconciliation (replacement splitChildren splitChildren_spec)

variable (hts : h.HoldsFiles ts) (ht : t ∈ ts) (hmem : heading ∈ t.subtrees)
  (hheading : heading.isHeading = true)
  (hnodes : ∀ n ∈ nodes, n.children = [] ∧ ∀ k, (Tree.node k n []).IsAssertionOf heading.content)
  (hids : (nodes.map Node.id).Nodup)

include hts ht hmem hheading hnodes hids

theorem node?_replaceAssertions_of_ne (hlt : k < h.nodes.size) (hne : k ≠ heading.key) :
    (Reconciliation.replaceAssertions h heading nodes).node? k = h.node? k := by
  have hadds := Adds.createAll h fun n hn => (hnodes n hn).1
  obtain ⟨hadopt, _, _⟩ := hts.mayAdopt_leaves ht hmem hheading hnodes hids
  obtain ⟨hsplit, _, _⟩ :=
    splitChildren_spec ((hts.isTestFile t ht).isHeadingOf_of_mem heading hmem hheading)
  have hold := hts.of_adds hadds
  rw [Reconciliation.replaceAssertions_eq, ← hadds.old k hlt]
  apply node?_setChildren_of_ne hadopt.stands hadopt.nodup_ids
    (hadopt.key_notMem hold.holds ht hmem) hne
  rintro c hc rfl
  rcases List.mem_append.1 hc with hc | hc
  · exact absurd hlt (Nat.not_lt.2 (hadds.size_le hc (Tree.key_mem_keys c.mem_subtrees_self)))
  · exact (hts.holds.linked t ht heading hmem).2 c (hsplit ▸ List.mem_append_right _ hc)

theorem face?_replaceAssertions (hlt : k < h.nodes.size) :
    (Reconciliation.replaceAssertions h heading nodes).face? k = h.face? k := by
  by_cases hk : k = heading.key
  · subst hk
    rw [face?, (hts.replaceAssertions ht hmem hheading hnodes hids).2, face?,
      (hts.holds.stands t ht).node? hmem]
    rfl
  · rw [face?, hts.node?_replaceAssertions_of_ne ht hmem hheading hnodes hids hlt hk, face?]

theorem nestedAt_replaceAssertions_self :
    (Reconciliation.replaceAssertions h heading nodes).nestedAt heading.key =
      h.nestedAt heading.key := by
  have hnew := hts.replaceAssertions_graft ht hmem hheading hnodes hids
  obtain ⟨_, hown, _⟩ := hts.mayAdopt_leaves ht hmem hheading hnodes hids
  obtain ⟨hsplit, hformer, hnested⟩ :=
    splitChildren_spec ((hts.isTestFile t ht).isHeadingOf_of_mem heading hmem hheading)
  have hin := Tree.mem_subtrees_graft_self (replacement h heading nodes) (Tree.key_mem_keys hmem)
  have hmap := List.mem_map_of_mem (f := Tree.graft heading.key (replacement h heading nodes)) ht
  have hleft := nestedAt_of_standsIn ((hnew.holds.stands _ hmap).of_mem hin)
    ((hnew.holds.linked _ hmap).of_mem hin)
  have hright := nestedAt_of_standsIn ((hts.holds.stands t ht).of_mem hmem)
    ((hts.holds.linked t ht).of_mem hmem)
  rw [hsplit, Tree.filter_isHeading_append (fun a ha => (hformer a ha).isAssertion) hnested]
    at hright
  change _ = (((leaves h.nodes.size nodes ++ (splitChildren heading).2).map
    (Tree.withParent heading.key)).filter Tree.isHeading).map Tree.key at hleft
  rw [List.map_append, hts.map_withParent_nested ht hmem hheading, Tree.filter_isHeading_append
    (List.forall_mem_map.2 fun a ha => ((hown a ha).withParent heading.key).isAssertion) hnested]
    at hleft
  exact hleft.trans hright.symm

/-- Giving a heading other assertions keeps all headings in their places. -/
theorem keeps_replaceAssertions (ha : h.Ascends) :
    h.Keeps (Reconciliation.replaceAssertions h heading nodes) where
  roots := by
    rw [Reconciliation.replaceAssertions_eq, setChildren_roots,
      (Adds.createAll h fun n hn => (hnodes n hn).1).roots]
  size_le := by
    rw [Reconciliation.replaceAssertions_eq, setChildren_size,
      (Adds.createAll h fun n hn => (hnodes n hn).1).size]
    exact Nat.le_add_right _ _
  face?_eq k hlt := hts.face?_replaceAssertions ht hmem hheading hnodes hids hlt
  nestedAt_eq k hlt := by
    by_cases hk : k = heading.key
    · rw [hk, hts.nestedAt_replaceAssertions_self ht hmem hheading hnodes hids]
    · rw [nestedAt, hts.node?_replaceAssertions_of_ne ht hmem hheading hnodes hids hlt hk, nestedAt]
      apply List.filter_congr
      intro c hc
      cases hnode : h.node? k with
      | none =>
        rw [hnode] at hc
        cases hc
      | some node =>
        rw [hnode] at hc
        rw [hts.face?_replaceAssertions ht hmem hheading hnodes hids (ha.children hnode c hc).2]

end HoldsFiles

end Hierarchy

end SuiteAtlas
