import Mathlib.Data.List.Basic
import Mathlib.Data.List.Nodup
import Mathlib.Data.List.Pairwise
import SuiteAtlas.Hierarchy.Tree

namespace SuiteAtlas.Tree

variable {t s old new : Tree} {ts cs : List Tree} {key k : Key} {content : Node}

/-- A property of trees holds of all if it holds of a tree whose children have it. -/
@[elab_as_elim]
theorem induct {motive : Tree → Prop}
    (node : ∀ key content children, (∀ c ∈ children, motive c) →
      motive (.node key content children)) : ∀ t, motive t
  | .node key content children => node key content children fun c _ => induct node c

mutual

def subtrees : Tree → List Tree
  | .node key content children => .node key content children :: subtreesAll children

def subtreesAll : List Tree → List Tree
  | [] => []
  | t :: rest => t.subtrees ++ subtreesAll rest

end

def keys (t : Tree) : List Key :=
  t.preorder.map Entry.key

theorem subtreesAll_eq (ts : List Tree) : subtreesAll ts = ts.flatMap subtrees := by
  induction ts with
  | nil => rfl
  | cons t ts ih => rw [subtreesAll, ih, List.flatMap_cons]

theorem preorderAll_eq (ts : List Tree) : preorderAll ts = ts.flatMap preorder := by
  induction ts with
  | nil => rfl
  | cons t ts ih => rw [preorderAll, ih, List.flatMap_cons]

theorem sizeAll_singleton (t : Tree) : sizeAll [t] = t.size := rfl

theorem size_le_sizeAll (ht : t ∈ ts) : t.size ≤ sizeAll ts := by
  obtain ⟨left, right, rfl⟩ := List.append_of_mem ht
  rw [sizeAll_append, sizeAll]
  omega

theorem headingsIn_eq (ts : List Tree) :
    headingsIn ts = ts.flatMap fun t => if t.isHeading then t :: t.headings else [] := by
  induction ts with
  | nil => rfl
  | cons t ts ih => rw [headingsIn, ih, List.flatMap_cons]

theorem subtrees_eq (t : Tree) : t.subtrees = t :: t.children.flatMap subtrees := by
  cases t with
  | node key content children => rw [subtrees, subtreesAll_eq, Tree.children]

theorem preorder_eq (t : Tree) : t.preorder = t.entry :: t.children.flatMap preorder := by
  cases t with
  | node key content children => rw [preorder, preorderAll_eq]; rfl

theorem headings_eq (t : Tree) :
    t.headings = t.children.flatMap fun c => if c.isHeading then c :: c.headings else [] := by
  cases t with
  | node key content children => rw [headings, headingsIn_eq, Tree.children]

theorem mem_subtrees_self (t : Tree) : t ∈ t.subtrees := by
  rw [subtrees_eq]
  exact List.mem_cons_self

theorem mem_subtrees_iff : s ∈ t.subtrees ↔ s = t ∨ ∃ c ∈ t.children, s ∈ c.subtrees := by
  rw [subtrees_eq, List.mem_cons, List.mem_flatMap]

theorem mem_subtrees_child (hs : s ∈ t.children) : s ∈ t.subtrees :=
  mem_subtrees_iff.2 (.inr ⟨s, hs, s.mem_subtrees_self⟩)

theorem mem_subtrees_trans (hs : s ∈ t.subtrees) (hnew : new ∈ s.subtrees) : new ∈ t.subtrees := by
  induction t using induct with
  | node key content children ih =>
    rcases mem_subtrees_iff.1 hs with rfl | ⟨c, hc, hs⟩
    · exact hnew
    · exact mem_subtrees_iff.2 (.inr ⟨c, hc, ih c hc hs⟩)

theorem preorder_eq_map_subtrees (t : Tree) : t.preorder = t.subtrees.map entry := by
  induction t using induct with
  | node key content children ih =>
    rw [preorder_eq, subtrees_eq, List.map_cons, List.map_flatMap]
    congr 1
    exact List.flatMap_congr ih

theorem keys_eq_map_subtrees (t : Tree) : t.keys = t.subtrees.map Tree.key := by
  rw [keys, preorder_eq_map_subtrees, List.map_map]
  rfl

theorem keys_eq (t : Tree) : t.keys = t.key :: t.children.flatMap keys := by
  rw [keys, preorder_eq, List.map_cons, List.map_flatMap]
  rfl

theorem key_mem_keys (hs : s ∈ t.subtrees) : s.key ∈ t.keys := by
  rw [keys_eq_map_subtrees]
  exact List.mem_map_of_mem hs

theorem keys_sublist (hs : s ∈ t.subtrees) : s.keys.Sublist t.keys := by
  induction t using induct with
  | node key content children ih =>
    rcases mem_subtrees_iff.1 hs with rfl | ⟨c, hc, hs⟩
    · exact List.Sublist.refl _
    · rw [keys_eq (.node key content children), List.flatMap_def]
      have hsub := List.sublist_flatten_of_mem (List.mem_map_of_mem (f := keys) hc)
      exact ((ih c hc hs).trans hsub).cons _

theorem flatMap_keys (ts : List Tree) :
    ts.flatMap keys = (ts.flatMap preorder).map Entry.key := by
  rw [List.map_flatMap]
  rfl

theorem map_key_sublist (ts : List Tree) : (ts.map Tree.key).Sublist (ts.flatMap keys) := by
  induction ts with
  | nil => exact List.Sublist.refl _
  | cons t ts ih =>
    rw [List.map_cons, List.flatMap_cons, keys_eq, List.cons_append]
    exact (ih.trans (List.sublist_append_right _ _)).cons_cons _

theorem size_eq_length_preorder (t : Tree) : t.size = t.preorder.length := by
  induction t using induct with
  | node key content children ih =>
    have hall : sizeAll children = (children.flatMap preorder).length := by
      induction children with
      | nil => rfl
      | cons c cs ihcs =>
        rw [sizeAll, List.flatMap_cons, List.length_append, ih c List.mem_cons_self,
          ihcs fun d hd => ih d (List.mem_cons_of_mem _ hd)]
    rw [size, hall, preorder_eq, List.length_cons, Tree.children]

theorem size_eq_length_keys (t : Tree) : t.size = t.keys.length := by
  rw [size_eq_length_preorder, keys, List.length_map]

theorem sizeAll_eq_length_keys (ts : List Tree) : sizeAll ts = (ts.flatMap keys).length := by
  induction ts with
  | nil => rfl
  | cons t ts ih =>
    rw [sizeAll, ih, List.flatMap_cons, List.length_append, size_eq_length_keys]

theorem of_mem_headings (hs : s ∈ t.headings) : s ∈ t.subtrees ∧ s.isHeading := by
  induction t using induct with
  | node key content children ih =>
    rw [headings_eq, List.mem_flatMap] at hs
    obtain ⟨c, hc, hs⟩ := hs
    by_cases hh : c.isHeading
    · rw [if_pos hh, List.mem_cons] at hs
      rcases hs with rfl | hs
      · exact ⟨mem_subtrees_child hc, hh⟩
      · exact ⟨mem_subtrees_iff.2 (.inr ⟨c, hc, (ih c hc hs).1⟩), (ih c hc hs).2⟩
    · simp [hh] at hs

theorem eq_of_key_eq (hn : t.keys.Nodup) (hs : s ∈ t.subtrees) (ho : old ∈ t.subtrees)
    (hk : s.key = old.key) : s = old := by
  rw [keys_eq_map_subtrees] at hn
  exact List.inj_on_of_nodup_map hn hs ho hk

theorem key_not_mem_keys (hn : t.keys.Nodup) (hs : s ∈ t.children) : t.key ∉ s.keys := by
  rw [keys_eq, List.nodup_cons] at hn
  exact fun hk => hn.1 (List.mem_flatMap.2 ⟨s, hs, hk⟩)

theorem eq_of_mem_keys (hn : (ts.flatMap keys).Nodup) (ht : t ∈ ts) (hs : s ∈ ts)
    (hkt : k ∈ t.keys) (hks : k ∈ s.keys) : t = s := by
  by_contra hne
  have : Std.Symm (Function.onFun List.Disjoint keys) := ⟨fun _ _ h _ ha hb => h hb ha⟩
  exact (List.nodup_flatMap.1 hn).2.forall ht hs hne hkt hks

/-- Every node lists the keys of its children, and they name it as their parent. -/
def IsLinked (t : Tree) : Prop :=
  ∀ s ∈ t.subtrees, s.content.children = s.children.map Tree.key ∧
    ∀ c ∈ s.children, c.content.parent = some s.key

theorem IsLinked.of_mem (h : t.IsLinked) (hs : s ∈ t.subtrees) : s.IsLinked :=
  fun _ hr => h _ (mem_subtrees_trans hs hr)

theorem IsLinked.child (h : t.IsLinked) (hs : s ∈ t.children) : s.IsLinked :=
  h.of_mem (mem_subtrees_child hs)

def withParent (parent : Key) : Tree → Tree
  | .node key content children => .node key (content.withParent (some parent)) children

@[simp] theorem withParent_key (t : Tree) : (t.withParent k).key = t.key := by
  cases t; rfl

@[simp] theorem withParent_children (t : Tree) : (t.withParent k).children = t.children := by
  cases t; rfl

@[simp] theorem withParent_content (t : Tree) :
    (t.withParent k).content = t.content.withParent (some k) := by
  cases t; rfl

@[simp] theorem withParent_keys (t : Tree) : (t.withParent k).keys = t.keys := by
  rw [keys_eq, keys_eq, withParent_key, withParent_children]

theorem withParent_of_parent (h : t.content.parent = some k) : t.withParent k = t := by
  cases t with
  | node key content children =>
    have hc : content.withParent (some k) = content := by
      rw [← show content.parent = some k from h]
      rfl
    rw [withParent, hc]

theorem IsLinked.withParent (h : t.IsLinked) (k : Key) : (t.withParent k).IsLinked := by
  intro s hs
  rcases mem_subtrees_iff.1 hs with rfl | ⟨c, hc, hs⟩
  · rw [withParent_content, withParent_children, withParent_key]
    exact h t t.mem_subtrees_self
  · rw [withParent_children] at hc
    exact h s (mem_subtrees_iff.2 (.inr ⟨c, hc, hs⟩))

def adopt (key : Key) (content : Node) (children : List Tree) : Tree :=
  .node key (content.withChildren (children.map Tree.key)) (children.map (withParent key))

theorem keys_adopt (key : Key) (content : Node) (children : List Tree) :
    (adopt key content children).keys = key :: children.flatMap keys := by
  rw [keys_eq, adopt, Tree.children, List.flatMap_map]
  simp only [withParent_keys]
  rfl

theorem size_adopt (key : Key) (content : Node) (children : List Tree) :
    (adopt key content children).size = sizeAll children + 1 := by
  rw [size_eq_length_keys, keys_adopt, List.length_cons, sizeAll_eq_length_keys]

theorem mem_subtrees_adopt (hs : s ∈ (adopt key content cs).subtrees) :
    s = adopt key content cs ∨ ∃ c ∈ cs, s ∈ (c.withParent key).subtrees := by
  rcases mem_subtrees_iff.1 hs with rfl | ⟨c, hc, hs⟩
  · exact .inl rfl
  · obtain ⟨d, hd, rfl⟩ := List.mem_map.1 hc
    exact .inr ⟨d, hd, hs⟩

theorem isLinked_adopt (h : ∀ c ∈ cs, c.IsLinked) : (adopt key content cs).IsLinked := by
  intro s hs
  rcases mem_subtrees_adopt hs with rfl | ⟨c, hc, hs⟩
  · constructor
    · change cs.map Tree.key = (cs.map (withParent key)).map Tree.key
      simp
    · intro c hc
      obtain ⟨c, _, rfl⟩ := List.mem_map.1 hc
      exact congrArg Node.parent (withParent_content c)
  · exact (h c hc).withParent key s hs

/-- A tree with `new` in the place of the tree inside it that has the key `k`. -/
def graft (k : Key) (new : Tree) : Tree → Tree
  | .node key content children =>
    if key = k then new else .node key content (children.map (graft k new))

theorem graft_of_eq (h : t.key = k) : graft k new t = new := by
  cases t with
  | node key content children => rw [graft, if_pos (show key = k from h)]

theorem graft_of_ne (h : t.key ≠ k) :
    graft k new t = .node t.key t.content (t.children.map (graft k new)) := by
  cases t with
  | node key content children =>
    rw [graft, if_neg (show ¬key = k from h)]
    rfl

theorem graft_key (t : Tree) (hnew : new.key = k) : (graft k new t).key = t.key := by
  by_cases h : t.key = k
  · rw [graft_of_eq h, hnew, h]
  · rw [graft_of_ne h]
    rfl

theorem graft_of_not_mem (h : k ∉ t.keys) : graft k new t = t := by
  induction t using induct with
  | node key content children ih =>
    rw [keys_eq, List.mem_cons, not_or, List.mem_flatMap, not_exists] at h
    rw [graft_of_ne (Ne.symm h.1)]
    congr 1
    rw [Tree.children, List.map_congr_left fun c hc => ih c hc fun hk => h.2 c ⟨hc, hk⟩]
    exact List.map_id' children

theorem map_graft_of_not_mem (h : k ∉ ts.flatMap keys) : ts.map (graft k new) = ts := by
  rw [List.mem_flatMap, not_exists] at h
  rw [List.map_congr_left fun c hc => graft_of_not_mem fun hk => h c ⟨hc, hk⟩]
  exact List.map_id' ts

theorem mem_subtrees_graft (hs : s ∈ (graft k new t).subtrees) :
    s ∈ new.subtrees ∨ ∃ r ∈ t.subtrees, r.key ≠ k ∧ s = graft k new r := by
  induction t using induct with
  | node key content children ih =>
    by_cases hk : key = k
    · rw [graft, if_pos hk] at hs
      exact .inl hs
    · rw [graft, if_neg hk] at hs
      rcases mem_subtrees_iff.1 hs with rfl | ⟨c, hc, hs⟩
      · exact .inr ⟨_, mem_subtrees_self _, hk, by rw [graft, if_neg hk]⟩
      · obtain ⟨d, hd, rfl⟩ := List.mem_map.1 hc
        rcases ih d hd hs with hs | ⟨r, hr, hrk, rfl⟩
        · exact .inl hs
        · exact .inr ⟨r, mem_subtrees_iff.2 (.inr ⟨d, hd, hr⟩), hrk, rfl⟩

theorem mem_subtrees_graft_self (new : Tree) (hk : k ∈ t.keys) :
    new ∈ (graft k new t).subtrees := by
  induction t using induct with
  | node key content children ih =>
    by_cases he : key = k
    · rw [graft, if_pos he]
      exact mem_subtrees_self new
    · rw [keys_eq, List.mem_cons] at hk
      rcases hk with rfl | hk
      · exact absurd rfl he
      · obtain ⟨c, hc, hk⟩ := List.mem_flatMap.1 hk
        rw [graft, if_neg he]
        exact mem_subtrees_iff.2 (.inr ⟨_, List.mem_map_of_mem hc, ih c hc hk⟩)

theorem IsLinked.graft (h : t.IsLinked) (hnew : new.IsLinked) (hkey : new.key = k)
    (hparent : ∀ s ∈ t.subtrees, s.key = k → new.content.parent = s.content.parent) :
    (graft k new t).IsLinked := by
  intro s hs
  rcases mem_subtrees_graft hs with hs | ⟨r, hr, hne, rfl⟩
  · exact hnew s hs
  · obtain ⟨hlist, hup⟩ := h r hr
    rw [graft_of_ne hne]
    constructor
    · change r.content.children = (r.children.map (Tree.graft k new)).map Tree.key
      rw [hlist, List.map_map]
      exact List.map_congr_left fun c _ => (graft_key c hkey).symm
    · intro d hd
      obtain ⟨c, hc, rfl⟩ := List.mem_map.1 hd
      by_cases hk : c.key = k
      · rw [graft_of_eq hk, hparent c (mem_subtrees_trans hr (mem_subtrees_child hc)) hk]
        exact hup c hc
      · rw [graft_of_ne hk]
        exact hup c hc

theorem graft_eq_of_mem (hn : (ts.flatMap keys).Nodup) (ht : t ∈ ts) (hk : k ∈ t.keys)
    (hs : s ∈ ts) : s = t ∨ graft k new s = s := by
  by_cases hks : k ∈ s.keys
  · exact .inl (eq_of_mem_keys hn hs ht hks hk)
  · exact .inr (graft_of_not_mem hks)

/-- Grafting in a row of trees changes only the tree that has the key. -/
theorem map_graft_append_cons {left right : List Tree}
    (hn : ((left ++ t :: right).flatMap keys).Nodup) (hk : k ∈ t.keys) :
    (left ++ t :: right).map (graft k new) = left ++ graft k new t :: right := by
  rw [List.flatMap_append, List.flatMap_cons, List.nodup_append, List.nodup_append] at hn
  obtain ⟨_, ⟨_, _, hright⟩, hleft⟩ := hn
  rw [List.map_append, List.map_cons,
    map_graft_of_not_mem fun hm => hleft _ hm _ (List.mem_append_left _ hk) rfl,
    map_graft_of_not_mem fun hm => hright _ hk _ hm rfl]

theorem preorder_map_graft {middle : List Entry} (hn : (ts.flatMap keys).Nodup) (ht : t ∈ ts)
    (hk : k ∈ t.keys)
    (h : ∃ before after, t.preorder = before ++ middle ++ after ∧
      (graft k new t).preorder = before ++ new.preorder ++ after) :
    ∃ before after, ts.flatMap preorder = before ++ middle ++ after ∧
      (ts.map (graft k new)).flatMap preorder = before ++ new.preorder ++ after := by
  obtain ⟨left, right, rfl⟩ := List.append_of_mem ht
  obtain ⟨before, after, hb, ha⟩ := h
  rw [map_graft_append_cons hn hk]
  refine ⟨left.flatMap preorder ++ before, after ++ right.flatMap preorder, ?_, ?_⟩
  · rw [List.flatMap_append, List.flatMap_cons, hb]
    simp only [List.append_assoc]
  · rw [List.flatMap_append, List.flatMap_cons, ha]
    simp only [List.append_assoc]

/-- Grafting exchanges one stretch of the nodes in depth-first order. -/
theorem preorder_graft (new : Tree) (hn : t.keys.Nodup) (ho : old ∈ t.subtrees) :
    ∃ before after, t.preorder = before ++ old.preorder ++ after ∧
      (graft old.key new t).preorder = before ++ new.preorder ++ after := by
  induction t using induct with
  | node key content children ih =>
    by_cases hk : key = old.key
    · have he := eq_of_key_eq hn (mem_subtrees_self _) ho hk
      refine ⟨[], [], ?_, ?_⟩
      · rw [he, List.nil_append, List.append_nil]
      · rw [graft, if_pos hk, List.nil_append, List.append_nil]
    · rcases mem_subtrees_iff.1 ho with rfl | ⟨c, hc, hoc⟩
      · exact absurd rfl hk
      rw [keys_eq, List.nodup_cons] at hn
      have hnc : c.keys.Nodup := (List.nodup_flatMap.1 hn.2).1 c hc
      obtain ⟨before, after, hb, ha⟩ :=
        preorder_map_graft hn.2 hc (key_mem_keys hoc) (ih c hc hnc hoc)
      refine ⟨⟨key, content⟩ :: before, after, ?_, ?_⟩
      · rw [preorder_eq, hb]
        rfl
      · rw [Tree.children] at ha
        rw [graft, if_neg hk, preorder_eq, Tree.children, ha]
        rfl

end SuiteAtlas.Tree
