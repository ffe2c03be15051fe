import SuiteAtlas.Proofs.Hierarchy.Address
import SuiteAtlas.Proofs.Hierarchy.Tree

namespace SuiteAtlas.Tree

open Address

structure IsAssertionOf (heading : Node) (a : Tree) : Prop where
  isAssertion : a.isAssertion = true
  children : a.children = []
  id : ∃ tail, a.content.id = below heading.id tail
  file : a.content.file = heading.file
  tags : a.content.tags = heading.tags

/-- A tree that is a heading of a file: its assertions come before the headings nested in it. -/
structure IsHeadingOf (root : Node) (t : Tree) : Prop where
  isHeading : t.isHeading = true
  isStep : IsStep t.content.label
  id : t.content.id = below root.id t.content.label
  file : t.content.file = root.file
  tags_ne_nil : t.content.tags ≠ []
  nodup_tags : t.content.tags.Nodup
  children : ∃ own nested, t.children = own ++ nested ∧ (∀ a ∈ own, a.IsAssertionOf t.content) ∧
    (∀ s ∈ nested, s.isHeading = true) ∧ (own.map fun a => a.content.id).Nodup

def labels (entries : List Entry) : List String :=
  (entries.filter fun e => e.content.isHeading).map fun e => e.content.label

structure IsTestFile (t : Tree) : Prop where
  isFile : t.content.isFile = true
  isHeading_of_mem : ∀ c ∈ t.children, c.isHeading = true
  isHeadingOf_of_mem : ∀ s ∈ t.subtrees, s.isHeading = true → s.IsHeadingOf t.content
  nodup_labels : (labels t.preorder).Nodup

variable {t s r old new a c p : Tree} {cs own nested : List Tree} {key k : Key}
  {root content : Node}

theorem not_isHeading_of_isAssertion (h : t.isAssertion = true) : t.isHeading = false := by
  rw [isAssertion, Node.isAssertion] at h
  rw [isHeading, Node.isHeading]
  cases hd : t.content.data with
  | none => rfl
  | some data =>
    rw [hd] at h
    cases data with
    | assertion info => rfl
    | _ => simp [NodeData.isAssertion] at h

theorem not_isFile_of_isAssertion (h : t.isAssertion = true) : ¬t.content.isFile = true := by
  rw [isAssertion, Node.isAssertion] at h
  rw [Node.isFile]
  cases hd : t.content.data with
  | none => exact Bool.false_ne_true
  | some data =>
    rw [hd] at h
    cases data with
    | assertion info => exact Bool.false_ne_true
    | _ => simp [NodeData.isAssertion] at h

theorem not_isHeading_of_isFile (h : t.content.isFile = true) : t.isHeading = false := by
  rw [Node.isFile] at h
  rw [isHeading, Node.isHeading]
  cases hd : t.content.data with
  | none => rfl
  | some data =>
    rw [hd] at h
    cases data with
    | file => rfl
    | _ => simp [NodeData.isFile] at h

theorem not_isAssertion_of_isHeading (h : t.isHeading = true) : t.isAssertion = false := by
  cases ha : t.isAssertion with
  | false => rfl
  | true => exact absurd h (by rw [not_isHeading_of_isAssertion ha]; exact Bool.false_ne_true)

theorem labels_append (xs ys : List Entry) : labels (xs ++ ys) = labels xs ++ labels ys := by
  rw [labels, List.filter_append, List.map_append]
  rfl

theorem labels_flatMap (f : Tree → List Entry) (ts : List Tree) :
    labels (ts.flatMap f) = ts.flatMap fun t => labels (f t) := by
  induction ts with
  | nil => rfl
  | cons t ts ih => rw [List.flatMap_cons, labels_append, ih, List.flatMap_cons]

@[simp] theorem isHeading_withParent (k : Key) (t : Tree) :
    (t.withParent k).isHeading = t.isHeading := by
  cases t; rfl

@[simp] theorem id_withParent (k : Key) (t : Tree) :
    (t.withParent k).content.id = t.content.id := by
  cases t; rfl

@[simp] theorem label_withParent (k : Key) (t : Tree) :
    (t.withParent k).content.label = t.content.label := by
  cases t; rfl

theorem labels_preorder (t : Tree) :
    labels t.preorder = (if t.isHeading then [t.content.label] else []) ++
      t.children.flatMap fun c => labels c.preorder := by
  rw [← labels_flatMap, preorder_eq]
  by_cases h : t.isHeading = true
  · have he : t.entry.content.isHeading = true := h
    rw [if_pos h, labels, List.filter_cons_of_pos (by simpa only using he)]
    rfl
  · have he : ¬t.entry.content.isHeading = true := h
    rw [if_neg h, labels, List.filter_cons_of_neg (by simpa only using he)]
    rfl

theorem labels_preorder_withParent (k : Key) (t : Tree) :
    labels (t.withParent k).preorder = labels t.preorder := by
  rw [labels_preorder, labels_preorder, isHeading_withParent, label_withParent,
    withParent_children]

theorem labels_of_isAssertionOf (h : a.IsAssertionOf content) : labels a.preorder = [] := by
  rw [labels_preorder, not_isHeading_of_isAssertion h.isAssertion, h.children,
    if_neg Bool.false_ne_true]
  rfl

theorem labels_append_assertions (h : ∀ a ∈ own, a.IsAssertionOf content) :
    ((own ++ nested).flatMap fun c => labels c.preorder) =
      nested.flatMap fun c => labels c.preorder := by
  have hown : (own.flatMap fun c => labels c.preorder) = [] :=
    List.flatMap_eq_nil_iff.2 fun a ha => labels_of_isAssertionOf (h a ha)
  rw [List.flatMap_append, hown, List.nil_append]

theorem labels_adopt (key : Key) (content : Node) (cs : List Tree) :
    labels (adopt key content cs).preorder =
      (if content.isHeading then [content.label] else []) ++
        cs.flatMap fun c => labels c.preorder := by
  rw [labels_preorder]
  change _ ++ (cs.map (Tree.withParent key)).flatMap _ = _
  rw [List.flatMap_map]
  simp only [labels_preorder_withParent]
  rfl

theorem IsAssertionOf.withParent (h : a.IsAssertionOf content) (k : Key) :
    (a.withParent k).IsAssertionOf content := by
  cases a with
  | node key content children => exact ⟨h.isAssertion, h.children, h.id, h.file, h.tags⟩

theorem IsHeadingOf.withParent (h : t.IsHeadingOf root) (k : Key) :
    (t.withParent k).IsHeadingOf root := by
  cases t with
  | node key content children =>
    obtain ⟨own, nested, he, hown, hrest⟩ := h.children
    exact ⟨h.isHeading, h.isStep, h.id, h.file, h.tags_ne_nil, h.nodup_tags, own, nested, he,
      fun a ha => ⟨(hown a ha).isAssertion, (hown a ha).children, (hown a ha).id, (hown a ha).file,
        (hown a ha).tags⟩, hrest⟩

theorem IsHeadingOf.suite_eq (h : t.IsHeadingOf root) : t.content.suite = root.suite := by
  rw [Node.suite, h.file, Node.suite]

theorem IsHeadingOf.isAssertionOf_of_mem (h : t.IsHeadingOf root) (ha : a ∈ t.children)
    (hassertion : a.isAssertion = true) : a.IsAssertionOf t.content := by
  obtain ⟨own, nested, he, hown, hnested, _⟩ := h.children
  rw [he] at ha
  rcases List.mem_append.1 ha with ha | ha
  · exact hown a ha
  · have hn := not_isHeading_of_isAssertion hassertion
    rw [hnested a ha] at hn
    exact absurd hn (by decide)

theorem IsHeadingOf.isAssertion_or_isHeading (h : t.IsHeadingOf root) (hc : c ∈ t.children) :
    c.isAssertion = true ∨ c.isHeading = true := by
  obtain ⟨own, nested, he, hown, hnested, _⟩ := h.children
  rw [he] at hc
  rcases List.mem_append.1 hc with hc | hc
  · exact .inl (hown c hc).isAssertion
  · exact .inr (hnested c hc)

theorem IsHeadingOf.eq_of_id_eq (h : t.IsHeadingOf root) (ha : a ∈ t.children)
    (hc : c ∈ t.children) (ha' : a.isAssertion = true) (hc' : c.isAssertion = true)
    (hid : a.content.id = c.content.id) : a = c := by
  obtain ⟨own, nested, he, _, hnested, hids⟩ := h.children
  have hmem : ∀ s ∈ t.children, s.isAssertion = true → s ∈ own := by
    intro s hs hassertion
    rw [he] at hs
    rcases List.mem_append.1 hs with hs | hs
    · exact hs
    · rw [not_isAssertion_of_isHeading (hnested s hs)] at hassertion
      exact absurd hassertion (by decide)
  exact List.inj_on_of_nodup_map hids (hmem a ha ha') (hmem c hc hc') hid

theorem isHeadingOf_adopt (hh : (adopt key content []).IsHeadingOf root)
    (hown : ∀ a ∈ own, a.IsAssertionOf content) (hnested : ∀ s ∈ nested, s.isHeading = true)
    (hids : (own.map fun a => a.content.id).Nodup) :
    (adopt key content (own ++ nested)).IsHeadingOf root := by
  refine ⟨hh.isHeading, hh.isStep, hh.id, hh.file, hh.tags_ne_nil, hh.nodup_tags,
    own.map (Tree.withParent key), nested.map (Tree.withParent key), ?_, ?_, ?_, ?_⟩
  · rw [← List.map_append]
    rfl
  · intro a ha
    obtain ⟨b, hb, rfl⟩ := List.mem_map.1 ha
    have hb' := (hown b hb).withParent key
    exact ⟨hb'.isAssertion, hb'.children, hb'.id, hb'.file, hb'.tags⟩
  · intro s hs
    obtain ⟨r, hr, rfl⟩ := List.mem_map.1 hs
    rw [isHeading_withParent]
    exact hnested r hr
  · simpa only [List.map_map, Function.comp_def, id_withParent] using hids

theorem isHeading_graft (hnew : new.isHeading = true) (h : t.isHeading = true) :
    (graft k new t).isHeading = true := by
  by_cases hk : t.key = k
  · rw [graft_of_eq hk]
    exact hnew
  · rw [graft_of_ne hk]
    exact h

theorem IsAssertionOf.graft_eq (h : a.IsAssertionOf content) (hk : a.key ≠ k) :
    graft k new a = a := by
  cases a with
  | node key content children =>
    have hc : children = [] := h.children
    rw [graft_of_ne hk, hc]
    rfl

theorem IsHeadingOf.graft (h : t.IsHeadingOf root) (hk : t.key ≠ k)
    (hold : ∀ c ∈ t.children, c.key = k → c.isHeading = true) (hnew : new.isHeading = true) :
    (graft k new t).IsHeadingOf root := by
  obtain ⟨own, nested, he, hown, hnested, hids⟩ := h.children
  have hstay : own.map (Tree.graft k new) = own := by
    refine (List.map_congr_left fun a ha => ?_).trans (List.map_id' own)
    apply (hown a ha).graft_eq
    intro hak
    have hheading := hold a (he ▸ List.mem_append_left _ ha) hak
    rw [not_isHeading_of_isAssertion (hown a ha).isAssertion] at hheading
    exact absurd hheading Bool.false_ne_true
  rw [graft_of_ne hk]
  refine ⟨h.isHeading, h.isStep, h.id, h.file, h.tags_ne_nil, h.nodup_tags, own,
    nested.map (Tree.graft k new), ?_, hown, ?_, hids⟩
  · rw [Tree.children, he, List.map_append, hstay]
  · intro s hs
    obtain ⟨r, hr, rfl⟩ := List.mem_map.1 hs
    exact isHeading_graft hnew (hnested r hr)

namespace IsTestFile

/-- A node of a file is the file, a heading, or an assertion of a heading. -/
theorem cases (h : t.IsTestFile) (hs : s ∈ t.subtrees) :
    s = t ∨ s.isHeading = true ∨
      ∃ p ∈ t.subtrees, p.isHeading = true ∧ s ∈ p.children ∧ s.isAssertion = true := by
  have hdown (p : Tree) (hp : p ∈ t.subtrees) (hheading : p.isHeading = true) (s : Tree)
      (hs : s ∈ p.subtrees) : s.isHeading = true ∨
        ∃ p ∈ t.subtrees, p.isHeading = true ∧ s ∈ p.children ∧ s.isAssertion = true := by
    induction p using induct with
    | node key content children ih =>
      have hof := h.isHeadingOf_of_mem _ hp hheading
      rcases mem_subtrees_iff.1 hs with rfl | ⟨c, hc, hs⟩
      · exact .inl hheading
      rcases hof.isAssertion_or_isHeading hc with hca | hch
      · have hleaf := (hof.isAssertionOf_of_mem hc hca).children
        rw [subtrees_eq, hleaf, List.flatMap_nil, List.mem_singleton] at hs
        subst hs
        exact .inr ⟨_, hp, hheading, hc, hca⟩
      · exact ih c hc (mem_subtrees_trans hp (mem_subtrees_child hc)) hch hs
  rcases mem_subtrees_iff.1 hs with rfl | ⟨c, hc, hs⟩
  · exact .inl rfl
  · exact .inr (hdown c (mem_subtrees_child hc) (h.isHeading_of_mem c hc) s hs)

theorem filter_subtrees (h : t.IsTestFile) : t.subtrees.filter isHeading = t.headings := by
  have hdown (p : Tree) (hp : p ∈ t.subtrees) (hheading : p.isHeading = true) :
      p.subtrees.filter isHeading = p :: p.headings := by
    induction p using induct with
    | node key content children ih =>
      have hof := h.isHeadingOf_of_mem _ hp hheading
      rw [subtrees_eq, List.filter_cons_of_pos hheading, List.filter_flatMap, headings_eq]
      congr 1
      apply List.flatMap_congr
      intro c hc
      rcases hof.isAssertion_or_isHeading hc with hca | hch
      · have hnone := not_isHeading_of_isAssertion hca
        rw [subtrees_eq, (hof.isAssertionOf_of_mem hc hca).children, List.flatMap_nil,
          List.filter_singleton, hnone]
        rfl
      · rw [ih c hc (mem_subtrees_trans hp (mem_subtrees_child hc)) hch, if_pos hch]
  have hself := not_isHeading_of_isFile h.isFile
  rw [subtrees_eq, List.filter_cons_of_neg (hself ▸ Bool.false_ne_true), List.filter_flatMap,
    headings_eq]
  apply List.flatMap_congr
  intro c hc
  have hheading := h.isHeading_of_mem c hc
  rw [hdown c (mem_subtrees_child hc) hheading, if_pos hheading]

theorem mem_headings (h : t.IsTestFile) (hs : s ∈ t.subtrees) (hs' : s.isHeading = true) :
    s ∈ t.headings := by
  rw [← h.filter_subtrees]
  exact List.mem_filter.2 ⟨hs, hs'⟩

theorem eq_of_label_eq (h : t.IsTestFile) (hs : s ∈ t.subtrees) (hr : r ∈ t.subtrees)
    (hs' : s.isHeading = true) (hr' : r.isHeading = true)
    (hl : s.content.label = r.content.label) : s = r := by
  have hn := h.nodup_labels
  rw [labels, preorder_eq_map_subtrees, List.filter_map, List.map_map] at hn
  exact List.inj_on_of_nodup_map hn (List.mem_filter.2 ⟨hs, hs'⟩) (List.mem_filter.2 ⟨hr, hr'⟩) hl

/-- The id of an assertion lies two steps below that of its file. -/
theorem exists_id_eq (h : t.IsTestFile) (hp : p ∈ t.subtrees) (hp' : p.isHeading = true)
    (hs : s ∈ p.children) (hs' : s.isAssertion = true) :
    ∃ tail, s.content.id = below (below t.content.id p.content.label) tail := by
  have hof := h.isHeadingOf_of_mem p hp hp'
  obtain ⟨tail, hid⟩ := (hof.isAssertionOf_of_mem hs hs').id
  exact ⟨tail, by rw [hid, hof.id]⟩

theorem eq_of_id_eq (h : t.IsTestFile) (hs : s ∈ t.subtrees) (hr : r ∈ t.subtrees)
    (hid : s.content.id = r.content.id) : s = r := by
  have hheading {s : Tree} (hs : s ∈ t.subtrees) (hs' : s.isHeading = true) :=
    h.isHeadingOf_of_mem s hs hs'
  rcases h.cases hs with rfl | hs' | ⟨p, hp, hp', hsp, hs'⟩ <;>
    rcases h.cases hr with rfl | hr' | ⟨q, hq, hq', hrq, hr'⟩
  · rfl
  · rw [(hheading hr hr').id] at hid
    exact absurd hid.symm (below_ne_self _ _)
  · obtain ⟨tail, he⟩ := h.exists_id_eq hq hq' hrq hr'
    rw [he] at hid
    exact absurd hid.symm (below_below_ne_self _ _ _)
  · rw [(hheading hs hs').id] at hid
    exact absurd hid (below_ne_self _ _)
  · rw [(hheading hs hs').id, (hheading hr hr').id] at hid
    exact h.eq_of_label_eq hs hr hs' hr' (below_inj.1 hid)
  · obtain ⟨tail, he⟩ := h.exists_id_eq hq hq' hrq hr'
    rw [(hheading hs hs').id, he] at hid
    exact absurd hid (below_ne_below_below (hheading hs hs').isStep)
  · obtain ⟨tail, he⟩ := h.exists_id_eq hp hp' hsp hs'
    rw [he] at hid
    exact absurd hid (below_below_ne_self _ _ _)
  · obtain ⟨tail, he⟩ := h.exists_id_eq hp hp' hsp hs'
    rw [(hheading hr hr').id, he] at hid
    exact absurd hid.symm (below_ne_below_below (hheading hr hr').isStep)
  · obtain ⟨x, hx⟩ := h.exists_id_eq hp hp' hsp hs'
    obtain ⟨y, hy⟩ := h.exists_id_eq hq hq' hrq hr'
    have hpq : p = q := by
      rw [hx, hy] at hid
      exact h.eq_of_label_eq hp hq hp' hq'
        (below_below_inj (hheading hp hp').isStep (hheading hq hq').isStep hid).1
    subst hpq
    exact (hheading hp hp').eq_of_id_eq hsp hrq hs' hr' hid

theorem nodup_ids (h : t.IsTestFile) (hn : t.keys.Nodup) :
    (t.preorder.map fun e => e.content.id).Nodup := by
  rw [keys_eq_map_subtrees] at hn
  rw [preorder_eq_map_subtrees, List.map_map]
  exact hn.of_map.map_on fun s hs r hr hid => h.eq_of_id_eq hs hr hid

theorem adopt (hfile : root.isFile = true) (hcs : ∀ c ∈ cs, c.isHeading = true)
    (hof : ∀ c ∈ cs, ∀ s ∈ c.subtrees, s.isHeading = true → s.IsHeadingOf root)
    (hlabels : (labels (cs.flatMap preorder)).Nodup) : (adopt key root cs).IsTestFile := by
  refine ⟨hfile, ?_, ?_, ?_⟩
  · intro d hd
    obtain ⟨c, hc, rfl⟩ := List.mem_map.1 hd
    rw [isHeading_withParent]
    exact hcs c hc
  · intro s hs hs'
    rcases mem_subtrees_adopt hs with rfl | ⟨c, hc, hs⟩
    · have hroot := not_isHeading_of_isFile (t := Tree.adopt key root cs) hfile
      rw [hroot] at hs'
      exact absurd hs' Bool.false_ne_true
    rcases mem_subtrees_iff.1 hs with rfl | ⟨d, hd, hs⟩
    · have hc' := (hof c hc c c.mem_subtrees_self (hcs c hc)).withParent key
      exact ⟨hc'.isHeading, hc'.isStep, hc'.id, hc'.file, hc'.tags_ne_nil, hc'.nodup_tags,
        hc'.children⟩
    · rw [withParent_children] at hd
      have hs'' := hof c hc s (mem_subtrees_iff.2 (.inr ⟨d, hd, hs⟩)) hs'
      exact ⟨hs''.isHeading, hs''.isStep, hs''.id, hs''.file, hs''.tags_ne_nil, hs''.nodup_tags,
        hs''.children⟩
  · have hroot : root.isHeading = false := not_isHeading_of_isFile (t := .node key root []) hfile
    rw [labels_adopt, hroot, if_neg Bool.false_ne_true, List.nil_append, ← labels_flatMap]
    exact hlabels

theorem key_ne (h : t.IsTestFile) (hn : t.keys.Nodup) (ho : old ∈ t.subtrees)
    (ho' : old.isHeading = true) : t.key ≠ old.key := by
  intro hk
  rw [← eq_of_key_eq hn t.mem_subtrees_self ho hk, not_isHeading_of_isFile h.isFile] at ho'
  exact absurd ho' Bool.false_ne_true

theorem graft (h : t.IsTestFile) (hn : t.keys.Nodup) (ho : old ∈ t.subtrees)
    (ho' : old.isHeading = true)
    (hof : ∀ s ∈ new.subtrees, s.isHeading = true → s.IsHeadingOf t.content)
    (hnew : new.isHeading = true) (hlabels : labels new.preorder = labels old.preorder) :
    (graft old.key new t).IsTestFile := by
  have hne := h.key_ne hn ho ho'
  have hroot : (Tree.graft old.key new t).content = t.content := by
    rw [graft_of_ne hne]
    rfl
  refine ⟨hroot ▸ h.isFile, ?_, ?_, ?_⟩
  · intro d hd
    rw [graft_of_ne hne] at hd
    obtain ⟨c, hc, rfl⟩ := List.mem_map.1 hd
    exact isHeading_graft hnew (h.isHeading_of_mem c hc)
  · intro s hs hs'
    rw [hroot]
    rcases mem_subtrees_graft hs with hs | ⟨r, hr, hrk, rfl⟩
    · exact hof s hs hs'
    · have hr' : r.isHeading = true := by
        rw [graft_of_ne hrk] at hs'
        exact hs'
      apply (h.isHeadingOf_of_mem r hr hr').graft hrk _ hnew
      intro c hc hck
      rw [eq_of_key_eq hn (mem_subtrees_trans hr (mem_subtrees_child hc)) ho hck]
      exact ho'
  · obtain ⟨before, after, hb, ha⟩ := preorder_graft new hn ho
    have hlab := h.nodup_labels
    rw [hb, labels_append, labels_append, ← hlabels] at hlab
    rw [ha, labels_append, labels_append]
    exact hlab

/-- A heading of a file is given other assertions before the headings nested in it. -/
theorem replace (h : t.IsTestFile) (hl : t.IsLinked) (hn : t.keys.Nodup) (ho : old ∈ t.subtrees)
    (ho' : old.isHeading = true) {former : List Tree} (hch : old.children = former ++ nested)
    (hformer : ∀ a ∈ former, a.IsAssertionOf old.content)
    (hnested : ∀ s ∈ nested, s.isHeading = true)
    (hown : ∀ a ∈ own, a.IsAssertionOf old.content)
    (hids : (own.map fun a => a.content.id).Nodup) :
    (Tree.graft old.key (Tree.adopt old.key old.content (own ++ nested)) t).IsTestFile := by
  have hof := h.isHeadingOf_of_mem old ho ho'
  have hnew : (Tree.adopt old.key old.content (own ++ nested)).isHeading = true := ho'
  apply h.graft hn ho ho' _ hnew _
  · intro s hs hs'
    rcases mem_subtrees_adopt hs with rfl | ⟨c, hc, hs⟩
    · exact isHeadingOf_adopt ⟨hof.isHeading, hof.isStep, hof.id, hof.file, hof.tags_ne_nil,
        hof.nodup_tags, [], [], rfl, by simp, by simp, List.nodup_nil⟩ hown hnested hids
    rcases List.mem_append.1 hc with hc | hc
    · have ha := (hown c hc).withParent old.key
      rw [subtrees_eq, ha.children, List.flatMap_nil, List.mem_singleton] at hs
      rw [hs, not_isHeading_of_isAssertion ha.isAssertion] at hs'
      exact absurd hs' Bool.false_ne_true
    · have hchild : c ∈ old.children := hch ▸ List.mem_append_right _ hc
      rw [withParent_of_parent ((hl old ho).2 c hchild)] at hs
      have hmem := mem_subtrees_trans ho (mem_subtrees_trans (mem_subtrees_child hchild) hs)
      exact h.isHeadingOf_of_mem s hmem hs'
  · rw [labels_adopt, labels_append_assertions hown, labels_preorder, hch,
      labels_append_assertions hformer]
    rfl

theorem nodup_ids_replace (h : t.IsTestFile) (hn : t.keys.Nodup) (ho : old ∈ t.subtrees)
    (ho' : old.isHeading = true) {former : List Tree} (hch : old.children = former ++ nested)
    (hnested : ∀ s ∈ nested, s.isHeading = true)
    (hown : ∀ a ∈ own, a.IsAssertionOf old.content)
    (hids : (own.map fun a => a.content.id).Nodup) :
    ((own ++ nested).map fun c => c.content.id).Nodup := by
  have hmem : ∀ s ∈ nested, s ∈ t.subtrees := fun s hs =>
    mem_subtrees_trans ho (mem_subtrees_child (hch ▸ List.mem_append_right _ hs))
  have hkeys : (nested.map Tree.key).Nodup := by
    have hold : (old.children.flatMap keys).Nodup := by
      have hold := hn.sublist (keys_sublist ho)
      rw [keys_eq] at hold
      exact hold.of_cons
    rw [hch, List.flatMap_append] at hold
    exact (hold.sublist (List.sublist_append_right _ _)).sublist (map_key_sublist nested)
  rw [List.map_append, List.nodup_append]
  refine ⟨hids, hkeys.of_map.map_on fun s hs r hr => h.eq_of_id_eq (hmem s hs) (hmem r hr), ?_⟩
  intro i hi j hj hij
  obtain ⟨a, ha, rfl⟩ := List.mem_map.1 hi
  obtain ⟨s, hs, rfl⟩ := List.mem_map.1 hj
  have hof := h.isHeadingOf_of_mem s (hmem s hs) (hnested s hs)
  obtain ⟨tail, hid⟩ := (hown a ha).id
  rw [hid, hof.id, (h.isHeadingOf_of_mem old ho ho').id] at hij
  exact below_ne_below_below hof.isStep hij.symm

end IsTestFile

end SuiteAtlas.Tree
