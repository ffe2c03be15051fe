import SuiteAtlas.Proofs.Outline.Planting

namespace SuiteAtlas

variable {h h' : Hierarchy} {t s : Tree} {ts : List Tree} {keys : List Key} {key k p : Key}
  {node : Node}

namespace Tree

theorem exists_parent_of_mem_subtrees (hs : s ∈ t.subtrees) :
    s = t ∨ ∃ q ∈ t.subtrees, s ∈ q.children := by
  induction t using induct with
  | node key content children ih =>
    rcases mem_subtrees_iff.1 hs with rfl | ⟨c, hc, hs⟩
    · exact .inl rfl
    rcases ih c hc hs with rfl | ⟨q, hq, hsq⟩
    · exact .inr ⟨_, mem_subtrees_self _, hc⟩
    · exact .inr ⟨q, mem_subtrees_iff.2 (.inr ⟨c, hc, hq⟩), hsq⟩

theorem key_lt_of_mem_children (hkeys : t.keys.Pairwise (· < ·)) (hs : s ∈ t.subtrees) {c : Tree}
    (hc : c ∈ s.children) : s.key < c.key := by
  have hsub := hkeys.sublist (keys_sublist hs)
  rw [keys_eq, List.pairwise_cons] at hsub
  exact hsub.1 _ (List.mem_flatMap.2 ⟨c, hc, key_mem_keys c.mem_subtrees_self⟩)

end Tree

namespace Hierarchy

/-- Every node has a smaller key than its children, which are in the table, and a greater one than
its parent. -/
structure Ascends (h : Hierarchy) : Prop where
  children : ∀ {k node}, h.node? k = some node → ∀ c ∈ node.children, k < c ∧ c < h.nodes.size
  parent : ∀ {k node p}, h.node? k = some node → node.parent = some p → p < k

theorem distinctIds_subset (h : Hierarchy) (keys : List Key) : h.distinctIds keys ⊆ keys := by
  have go (kept rest : List Key) (hkept : kept ⊆ keys) (hrest : rest ⊆ keys) :
      rest.foldl (fun kept key =>
        if kept.any fun k => h.id? k == h.id? key then kept else kept ++ [key]) kept ⊆ keys := by
    induction rest generalizing kept with
    | nil => exact hkept
    | cons key rest ih =>
      rw [List.cons_subset] at hrest
      rw [List.foldl_cons]
      apply ih _ _ hrest.2
      split
      · exact hkept
      · exact List.append_subset.2 ⟨hkept, List.cons_subset.2 ⟨hrest.1, List.nil_subset _⟩⟩
  exact go [] keys (List.nil_subset _) (List.Subset.refl _)

/-- Of a node that stands where others became children, the children are the given ones or those it
had, and so is the parent. -/
theorem exists_of_node?_setChildren (hk : (h.setChildren key keys).node? k = some node) :
    ∃ old, h.node? k = some old ∧
      (node.children = old.children ∨ k = key ∧ node.children = h.distinctIds keys) ∧
      (node.parent = old.parent ∨ k ∈ h.distinctIds keys ∧ node.parent = some key) := by
  rw [setChildren, node?_modify, node?_setParent] at hk
  split at hk
  next he =>
    obtain ⟨mid, hmid, rfl⟩ := Option.map_eq_some_iff.1 hk
    split at hmid
    next hmem =>
      obtain ⟨old, hold, rfl⟩ := Option.map_eq_some_iff.1 hmid
      exact ⟨old, hold, .inr ⟨he, rfl⟩, .inr ⟨hmem, rfl⟩⟩
    next => exact ⟨mid, hmid, .inr ⟨he, rfl⟩, .inl rfl⟩
  next =>
    split at hk
    next hmem =>
      obtain ⟨old, hold, rfl⟩ := Option.map_eq_some_iff.1 hk
      exact ⟨old, hold, .inl rfl, .inr ⟨hmem, rfl⟩⟩
    next => exact ⟨node, hk, .inl rfl, .inl rfl⟩

namespace Ascends

theorem empty : Ascends {} where
  children hnode := by simp [node?] at hnode
  parent hnode := by simp [node?] at hnode

theorem of_nodes_eq (ha : h.Ascends) (hnodes : h'.nodes = h.nodes) : h'.Ascends := by
  have hnode : ∀ k, h'.node? k = h.node? k := fun k => by rw [node?, node?, hnodes]
  constructor
  · intro k node hk
    rw [hnodes]
    exact ha.children (hnode k ▸ hk)
  · intro k node p hk
    exact ha.parent (hnode k ▸ hk)

theorem putRoot (ha : h.Ascends) (key : Key) : (h.putRoot key).Ascends := by
  have hsize : (h.putRoot key).nodes.size = h.nodes.size := by
    rw [Hierarchy.putRoot]
    split <;> exact setParent_size h none [key]
  constructor
  · intro k node hk
    rw [node?_putRoot] at hk
    rw [hsize]
    split at hk
    · obtain ⟨old, hold, rfl⟩ := Option.map_eq_some_iff.1 hk
      exact fun c hc => ha.children hold c hc
    · exact ha.children hk
  · intro k node p hk hp
    rw [node?_putRoot] at hk
    split at hk
    · obtain ⟨old, hold, rfl⟩ := Option.map_eq_some_iff.1 hk
      cases hp
    · exact ha.parent hk hp

theorem setChildren (ha : h.Ascends) (hkeys : ∀ c ∈ keys, key < c ∧ c < h.nodes.size) :
    (h.setChildren key keys).Ascends := by
  have hkept : ∀ c ∈ h.distinctIds keys, key < c ∧ c < h.nodes.size :=
    fun c hc => hkeys c (h.distinctIds_subset keys hc)
  constructor
  · intro k node hk c hc
    rw [setChildren_size]
    obtain ⟨old, hold, hchildren, _⟩ := exists_of_node?_setChildren hk
    rcases hchildren with he | ⟨rfl, he⟩
    · exact ha.children hold c (he ▸ hc)
    · exact hkept c (he ▸ hc)
  · intro k node p hk hp
    obtain ⟨old, hold, _, hparent⟩ := exists_of_node?_setChildren hk
    rcases hparent with he | ⟨hmem, he⟩
    · exact ha.parent hold (he ▸ hp)
    · rw [he, Option.some.injEq] at hp
      exact hp ▸ (hkept k hmem).1

/-- Trees that were added behind the others keep the order, since their keys ascend. -/
theorem of_adds (ha : h.Ascends) (hadds : Adds h h' ts)
    (htop : ∀ t ∈ ts, t.content.parent = none) : h'.Ascends := by
  have hsize : h.nodes.size ≤ h'.nodes.size := hadds.size ▸ Nat.le_add_right _ _
  have hsorted : ∀ t ∈ ts, t.keys.Pairwise (· < ·) := fun t ht =>
    (hadds.keys ▸ List.pairwise_lt_range').sublist
      (List.sublist_flatten_of_mem (List.mem_map_of_mem ht) : t.keys.Sublist (ts.flatMap Tree.keys))
  -- a node behind the old ones is one of the trees that were added
  have hnew : ∀ {k node}, h'.node? k = some node → h.nodes.size ≤ k →
      ∃ t ∈ ts, ∃ s ∈ t.subtrees, s.key = k ∧ s.content = node := by
    intro k node hk hle
    have hmem : k ∈ ts.flatMap Tree.keys := by
      rw [hadds.keys, List.mem_range'_1, ← hadds.size]
      exact ⟨hle, node?_lt hk⟩
    obtain ⟨t, ht, hkt⟩ := List.mem_flatMap.1 hmem
    rw [Tree.keys_eq_map_subtrees] at hkt
    obtain ⟨s, hs, rfl⟩ := List.mem_map.1 hkt
    rw [(hadds.stands t ht).node? hs, Option.some.injEq] at hk
    exact ⟨t, ht, s, hs, rfl, hk⟩
  constructor
  · intro k node hk c hc
    by_cases hlt : k < h.nodes.size
    · exact (ha.children (hadds.old k hlt ▸ hk) c hc).imp_right
        fun hlt => Nat.lt_of_lt_of_le hlt hsize
    · obtain ⟨t, ht, s, hs, rfl, rfl⟩ := hnew hk (Nat.not_lt.1 hlt)
      rw [((hadds.linked t ht) s hs).1] at hc
      obtain ⟨d, hd, rfl⟩ := List.mem_map.1 hc
      have hin := Tree.mem_subtrees_trans hs (Tree.mem_subtrees_child hd)
      exact ⟨Tree.key_lt_of_mem_children (hsorted t ht) hs hd,
        (hadds.stands t ht).key_lt (Tree.key_mem_keys hin)⟩
  · intro k node p hk hp
    by_cases hlt : k < h.nodes.size
    · exact ha.parent (hadds.old k hlt ▸ hk) hp
    · obtain ⟨t, ht, s, hs, rfl, rfl⟩ := hnew hk (Nat.not_lt.1 hlt)
      rcases Tree.exists_parent_of_mem_subtrees hs with rfl | ⟨q, hq, hsq⟩
      · rw [htop s ht] at hp
        cases hp
      · rw [((hadds.linked t ht) q hq).2 s hsq, Option.some.injEq] at hp
        exact hp ▸ Tree.key_lt_of_mem_children (hsorted t ht) hq hsq

theorem treeAt_eq_none {depth : Nat} (hk : h.nodes.size ≤ k) : h.treeAt depth k = none := by
  cases depth with
  | zero => rfl
  | succ depth => rw [treeAt, node?, Array.getElem?_eq_none hk, Option.map_none]

theorem treeAt_eq (ha : h.Ascends) {depth depth' : Nat} (hd : h.nodes.size ≤ k + depth)
    (hd' : h.nodes.size ≤ k + depth') : h.treeAt depth k = h.treeAt depth' k := by
  induction depth generalizing k depth' with
  | zero =>
    rw [Nat.add_zero] at hd
    rw [treeAt_eq_none hd, treeAt_eq_none hd]
  | succ depth ih =>
    cases depth' with
    | zero =>
      rw [Nat.add_zero] at hd'
      rw [treeAt_eq_none hd', treeAt_eq_none hd']
    | succ depth' =>
      rw [treeAt, treeAt]
      apply Option.map_congr
      intro node hnode
      congr 1
      apply List.filterMap_congr
      intro c hc
      have hlt := Nat.succ_le_of_lt (ha.children hnode c hc).1
      exact ih (by omega) (by omega)

theorem tree?_eq (ha : h.Ascends) (k : Key) :
    h.tree? k = (h.node? k).map fun node => .node k node (node.children.filterMap h.tree?) := by
  have hnext : h.tree? k = h.treeAt (h.nodes.size + 1) k :=
    ha.treeAt_eq (Nat.le_add_left _ _) (by omega)
  rw [hnext]
  rfl

end Ascends

theorem Ascends.lt_of_parent (ha : h.Ascends) (hup : (h.node? k).bind Node.parent = some p) :
    p < k := by
  obtain ⟨node, hnode, hparent⟩ := Option.bind_eq_some_iff.1 hup
  exact ha.parent hnode hparent

theorem climb_of_parent_eq_none (hup : (h.node? k).bind Node.parent = none) (fuel : Nat) :
    h.climb fuel k = k := by
  cases fuel with
  | zero => rfl
  | succ fuel =>
    rw [climb]
    split
    next => rfl
    next hsome =>
      rw [hup] at hsome
      cases hsome

theorem climb_of_parent_eq_some (hup : (h.node? k).bind Node.parent = some p) (fuel : Nat) :
    h.climb (fuel + 1) k =
      if ((h.node? p).bind Node.parent).isNone then k else h.climb fuel p := by
  rw [climb, hup]
  dsimp only
  cases (h.node? p).bind Node.parent <;> rfl

/-- Climbing takes no more steps than the key it starts from, and reads nothing but parents. -/
theorem Ascends.climb_eq (ha : h.Ascends) {fuel fuel' : Nat} (hf : k ≤ fuel) (hf' : k ≤ fuel')
    (hsame : ∀ j ≤ k, (h'.node? j).bind Node.parent = (h.node? j).bind Node.parent) :
    h'.climb fuel' k = h.climb fuel k := by
  induction k using Nat.strong_induction_on generalizing fuel fuel' with
  | h k ih =>
    have hup' := hsame k (Nat.le_refl k)
    cases hup : (h.node? k).bind Node.parent with
    | none => rw [climb_of_parent_eq_none hup, climb_of_parent_eq_none (hup'.trans hup)]
    | some p =>
      have hlt := ha.lt_of_parent hup
      obtain ⟨f, rfl⟩ := Nat.exists_eq_succ_of_ne_zero (Nat.ne_of_gt (Nat.lt_of_lt_of_le
        (Nat.zero_lt_of_lt hlt) hf))
      obtain ⟨f', rfl⟩ := Nat.exists_eq_succ_of_ne_zero (Nat.ne_of_gt (Nat.lt_of_lt_of_le
        (Nat.zero_lt_of_lt hlt) hf'))
      rw [climb_of_parent_eq_some hup, climb_of_parent_eq_some (hup'.trans hup),
        hsame p (Nat.le_of_lt hlt), ih p hlt (Nat.le_of_lt_succ (Nat.lt_of_lt_of_le hlt hf))
          (Nat.le_of_lt_succ (Nat.lt_of_lt_of_le hlt hf'))
          fun j hj => hsame j (Nat.le_trans hj (Nat.le_of_lt hlt))]

theorem Ascends.climb_le (ha : h.Ascends) (fuel : Nat) (k : Key) : h.climb fuel k ≤ k := by
  induction fuel generalizing k with
  | zero => exact Nat.le_refl k
  | succ fuel ih =>
    cases hup : (h.node? k).bind Node.parent with
    | none => rw [climb_of_parent_eq_none hup]
    | some p =>
      rw [climb_of_parent_eq_some hup]
      split
      · exact Nat.le_refl k
      · exact Nat.le_trans (ih p) (Nat.le_of_lt (ha.lt_of_parent hup))

end Hierarchy

end SuiteAtlas
