import SuiteAtlas.Proofs.Hierarchy.Walk

namespace SuiteAtlas

theorem count_flatMap_of_nodup {α β : Type} [BEq β] [LawfulBEq β] {f : α → List β} {as : List α}
    (h : ∀ a ∈ as, (f a).Nodup) (b : β) :
    (as.flatMap f).count b = as.countP fun a => (f a).contains b := by
  induction as with
  | nil => rfl
  | cons a as ih =>
    rw [List.forall_mem_cons] at h
    have hfirst : (f a).count b = if (f a).contains b then 1 else 0 := by
      rw [h.1.count]
      simp only [List.contains_iff_mem]
    rw [List.flatMap_cons, List.count_append, ih h.2, List.countP_cons, hfirst, Nat.add_comm]

namespace Tree.IsTestFile

variable {t : Tree}

theorem nodup_map_label_headings (h : t.IsTestFile) :
    (t.headings.map fun s => s.content.label).Nodup := by
  have hlabels := h.nodup_labels
  rw [labels, h.filter_preorder, List.map_map] at hlabels
  exact hlabels

theorem nodup_map_target_headings (h : t.IsTestFile) : (t.headings.map target).Nodup := by
  apply List.Nodup.of_map Target.function
  rw [List.map_map]
  exact h.nodup_map_label_headings

end Tree.IsTestFile

namespace Session

variable {s : Session} {tag : String} {count : Nat}

theorem mem_map_fst_countTags :
    tag ∈ s.countTags.map Prod.fst ↔ ∃ t ∈ s.headings, tag ∈ t.content.tags := by
  rw [countTags, List.map_map, List.mem_map]
  simp only [List.mem_mergeSort, List.mem_eraseDups, List.mem_flatMap]
  exact exists_eq_right

theorem mem_countTags_of_forall (hknown : tag ∈ s.countTags.map Prod.fst)
    (hline : ∀ n, (tag, n) ∈ s.countTags → n = count) : (tag, count) ∈ s.countTags := by
  obtain ⟨⟨name, n⟩, hmem, rfl⟩ := List.mem_map.1 hknown
  exact hline n hmem ▸ hmem

theorem nodup_map_fst_countTags (s : Session) : (s.countTags.map Prod.fst).Nodup := by
  rw [countTags, List.map_map]
  have hnames := Source.nodup_eraseDups (s.headings.flatMap fun heading => heading.content.tags)
  exact (List.map_id _).symm ▸ (List.mergeSort_perm _ _).nodup_iff.2 hnames

theorem HoldsFiles.nodup_tags {t : Tree} (h : s.HoldsFiles) (ht : t ∈ s.headings) :
    t.content.tags.Nodup := by
  obtain ⟨root, hroot, ht⟩ := List.mem_flatMap.1 ht
  exact (h.isHeadingOf hroot ht).nodup_tags

theorem HoldsFiles.eq_of_mem_countTags (h : s.HoldsFiles) (hmem : (tag, count) ∈ s.countTags) :
    count = s.headings.countP fun t => t.content.tags.contains tag := by
  obtain ⟨name, _, he⟩ := List.mem_map.1 hmem
  cases he
  exact count_flatMap_of_nodup (fun _ ht => h.nodup_tags ht) tag

theorem select_tag (s : Session) (tag : String) : s.select { tag := some tag } =
    firsts Tree.target (s.headings.filter fun t => t.content.tags.contains tag) := rfl

theorem select_tag_sublist (s : Session) (tag : String) :
    (s.select { tag := some tag }).Sublist s.headings :=
  (firsts_sublist _ _).trans List.filter_sublist

theorem select_tag_ne_nil_iff :
    s.select { tag := some tag } ≠ [] ↔ ∃ t ∈ s.headings, tag ∈ t.content.tags := by
  rw [select_tag, Ne, firsts_eq_nil_iff, List.filter_eq_nil_iff]
  simp

theorem HoldsFiles.nodup_map_target_headings (h : s.HoldsFiles)
    (hsuites : (s.hierarchy.rootTrees.map fun root => root.content.suite).Nodup) :
    (s.headings.map Tree.target).Nodup := by
  have hsame {root t : Tree} (hroot : root ∈ s.hierarchy.rootTrees) (ht : t ∈ root.headings) :=
    h.suite_eq hroot ht
  obtain ⟨ts, hts⟩ := h
  rw [hts.holds.rootTrees_eq] at hsuites hsame
  rw [headings, Hierarchy.headings, hts.holds.rootTrees_eq, List.map_flatMap, List.nodup_flatMap]
  refine ⟨fun root hroot => (hts.isTestFile root hroot).nodup_map_target_headings, ?_⟩
  apply (List.pairwise_map.1 hsuites).imp_of_mem
  intro left right hleft hright hne target hl hr
  obtain ⟨t, ht, rfl⟩ := List.mem_map.1 hl
  obtain ⟨r, hr, he⟩ := List.mem_map.1 hr
  have hsuite : r.content.suite = t.content.suite := congrArg Target.suite he
  exact hne (by rw [← hsame hleft ht, ← hsuite, hsame hright hr])

theorem HoldsFiles.length_select_tag (h : s.HoldsFiles)
    (hsuites : (s.hierarchy.rootTrees.map fun root => root.content.suite).Nodup) (tag : String) :
    (s.select { tag := some tag }).length =
      s.headings.countP fun t => t.content.tags.contains tag := by
  have htargets := (h.nodup_map_target_headings hsuites).sublist
    ((List.filter_sublist (p := fun t => t.content.tags.contains tag)).map Tree.target)
  rw [select_tag, firsts_eq_self htargets, List.countP_eq_length_filter]

theorem HoldsFiles.countP_walk (h : s.HoldsFiles) (tag : String) :
    (s.hierarchy.walk.countP fun e => e.content.isHeading && e.content.tags.contains tag) =
      s.headings.countP fun t => t.content.tags.contains tag := by
  have hfilter : (s.hierarchy.walk.countP fun e =>
        e.content.isHeading && e.content.tags.contains tag) =
      (s.hierarchy.walk.filter fun e => e.content.isHeading).countP fun e =>
        e.content.tags.contains tag := by
    rw [List.countP_filter]
    simp only [Bool.and_comm]
  rw [hfilter, h.filter_walk, List.countP_map]
  rfl

/-- In every state that can be reached, a tag has its one line in the table if and only if a run of
it starts anything. The line counts the headings with the tag among all nodes, and, unless two files
are of one suite, those that the run starts; these stand in the order of all headings. -/
theorem Reachable.countTags_select (h : s.Reachable) (tag : String) :
    let selected := s.select { tag := some tag }
    (s.countTags.map Prod.fst).Nodup ∧
      (tag ∈ s.countTags.map Prod.fst ↔ selected ≠ []) ∧
      (∀ count, (tag, count) ∈ s.countTags → count = s.hierarchy.walk.countP fun e =>
        e.content.isHeading && e.content.tags.contains tag) ∧
      ((s.hierarchy.rootTrees.map fun root => root.content.suite).Nodup →
        ∀ count, (tag, count) ∈ s.countTags → count = selected.length) ∧
      selected.Sublist s.headings := by
  have hfiles := h.holdsFiles
  refine ⟨s.nodup_map_fst_countTags, mem_map_fst_countTags.trans select_tag_ne_nil_iff.symm, ?_, ?_,
    s.select_tag_sublist tag⟩
  · intro count hmem
    rw [hfiles.countP_walk, hfiles.eq_of_mem_countTags hmem]
  · intro hsuites count hmem
    rw [hfiles.length_select_tag hsuites, hfiles.eq_of_mem_countTags hmem]

/-- With one file, the table counts the heading that a run starts. With another file of the same
suite, it counts the headings of both, of which the run starts one. -/
theorem Reachable.countTags_select_emptyTwin :
    let one := (oneFile.plantText 0 nestedText none).2
    let two := (emptyTwin.plantText 5 nestedText none).2
    one.Reachable ∧ (one.hierarchy.rootTrees.map fun root => root.content.suite).Nodup ∧
      ("slow:deep", 1) ∈ one.countTags ∧ "deep" ∉ one.countTags.map Prod.fst ∧
      (one.select { tag := some "slow:deep" }).map Tree.key = [3] ∧
      two.Reachable ∧ ("slow:deep", 2) ∈ two.countTags ∧
      (two.select { tag := some "slow:deep" }).map Tree.key = [3] := by
  intro one two
  have hone : (one.hierarchy.rootTrees.map fun root => root.content.suite).Nodup ∧
      (one.select { tag := some "slow:deep" }).map Tree.key = [3] ∧
      (one.select { tag := some "deep" }).map Tree.key = [] := by
    decide +kernel
  have htwo : (emptyTwin.hierarchy.node? 5).map Node.isFile = some true ∧
      (two.select { tag := some "slow:deep" }).map Tree.key = [3] ∧
      (two.hierarchy.rootTrees.flatMap Tree.preorder).countP (fun e =>
        e.content.isHeading && e.content.tags.contains "slow:deep") = 2 := by
    decide +kernel
  obtain ⟨hsuites, hselect, hnone⟩ := hone
  obtain ⟨hfile, hagain, hcount⟩ := htwo
  have hreach : one.Reachable := reachable_nestedText
  have htwice : two.Reachable := reachable_plantText_emptyTwin hfile
  have hstarts {s : Session} (h : (s.select { tag := some "slow:deep" }).map Tree.key = [3]) :
      s.select { tag := some "slow:deep" } ≠ [] := by
    rw [← List.map_eq_nil_iff.ne, h]
    exact List.cons_ne_nil 3 []
  refine ⟨hreach, hsuites, ?_, ?_, hselect, htwice, ?_, hagain⟩
  · obtain ⟨_, hknown, _, hline, _⟩ := Reachable.countTags_select hreach "slow:deep"
    refine mem_countTags_of_forall (hknown.2 (hstarts hselect)) fun count hmem => ?_
    rw [hline hsuites count hmem, ← List.length_map Tree.key, hselect, List.length_singleton]
  · obtain ⟨_, hunknown, _⟩ := Reachable.countTags_select hreach "deep"
    exact fun hdeep => hunknown.1 hdeep (List.map_eq_nil_iff.1 hnone)
  · obtain ⟨_, hknown, hline, _⟩ := Reachable.countTags_select htwice "slow:deep"
    refine mem_countTags_of_forall (hknown.2 (hstarts hagain)) fun count hmem => ?_
    rw [hline count hmem, Hierarchy.walk, Tree.walk_eq, hcount]

end Session

end SuiteAtlas
