import SuiteAtlas.Proofs.Session.Planting

namespace SuiteAtlas

open Source
open SuiteAtlas.Tree (adopt labels)

namespace Outline

variable {text : List Char} {before after : List Placed} {p : Placed}

theorem headings_eq_place (text : List Char) :
    headings (scan text) =
      (place 0 [] (blocks (scan text)).2).map fun p => p.block.heading := by
  rw [← map_heading_blocks, ← map_block_place 0 [] (blocks (scan text)).2, List.map_map,
    map_block_place]
  rfl

/-- A heading that is not marked as repeated is the first one of its name. -/
theorem find?_headings (h : place 0 [] (blocks (scan text)).2 = before ++ p :: after)
    (hp : p.repeated = false) :
    (headings (scan text)).find? (fun h => h.name == p.name) = some p.block.heading := by
  have hnew : p.name ∉ before.map Placed.name := by
    intro hm
    have hold := (repeated_place h).2 (.inr hm)
    rw [hp] at hold
    exact Bool.false_ne_true hold
  rw [headings_eq_place, h, List.find?_map, List.find?_append, List.find?_eq_none.2]
  · rw [Option.none_or, List.find?_cons_of_pos (by simp [Placed.name])]
    rfl
  · intro q hq hname
    exact hnew (List.mem_map.2 ⟨q, hq, beq_iff_eq.1 hname⟩)

theorem labels_planted (site : Site) (parentId : String) (next : Key) (text : List Char) :
    labels ((site.forest parentId next (ofEvents (scan text)).sections).flatMap Tree.preorder) =
      (kept none (place 0 [] (blocks (scan text)).2)).map Placed.name := by
  have hblocks : (ofEvents (scan text)).sections.flatMap Section.blocks =
      (kept none (place 0 [] (blocks (scan text)).2)).map Placed.block := by
    have hleveled := congrArg (List.map Prod.snd) (leveled_nestAt 0 [] (blocks (scan text)).2)
    rw [List.map_flatMap, List.map_map] at hleveled
    rw [ofEvents_eq, nest, List.flatMap_map]
    refine Eq.trans (List.flatMap_congr fun s _ => ?_) hleveled
    rw [Section.map_snd_leveled]
  rw [Site.labels_forest, hblocks, List.map_map]
  rfl

end Outline

namespace Session

variable {s : Session} {key : Key} {root : Node}

theorem plantText_kept (text : List Char) (stamp : Option Int)
    (hkey : s.hierarchy.node? key = some root) (hfile : root.isFile = true) :
    let shown := Outline.kept none (Outline.place 0 [] (Outline.blocks (scan text)).2)
    ∃ t, (s.plantText key text stamp).2.hierarchy.tree? key = some t ∧ t.IsTestFile ∧
      labels t.preorder = shown.map Outline.Placed.name ∧
      (t.placed 0).tail.map Shown.ofNode =
        shown.flatMap fun p => Shown.ofBlock (p.level, p.block) := by
  have hb := Outline.areProper_ofEvents text
  obtain ⟨number, htree⟩ := tree?_plantText hkey hfile text stamp
  refine ⟨_, htree, Hierarchy.plantOutline_isTestFile s.hierarchy key number hfile hb, ?_, ?_⟩
  · rw [Tree.labels_adopt, Hierarchy.isHeading_of_isFile hfile, if_neg Bool.false_ne_true,
      List.nil_append, ← Tree.labels_flatMap]
    exact Outline.labels_planted _ _ _ text
  · rw [List.map_tail, Shown.map_ofNode_adopt, List.tail_cons]
    exact Outline.map_ofNode_kept _ _ _ text

theorem exists_mem_kept {t : Tree} {kept : List Outline.Placed} {e : Tree.Entry}
    (hfile : t.content.isFile = true)
    (hshown : (t.placed 0).tail.map Shown.ofNode =
      kept.flatMap fun p => Shown.ofBlock (p.level, p.block))
    (he : e ∈ t.preorder) (hheading : e.content.isHeading = true) :
    ∃ p ∈ kept, e.content.label = p.name ∧ e.content.range = some p.block.heading.range ∧
      e.content.tags = p.block.heading.tags := by
  rw [← Tree.map_snd_placed 0] at he
  obtain ⟨⟨level, _⟩, hplaced, rfl⟩ := List.mem_map.1 he
  rw [Tree.placed_eq] at hplaced hshown
  rcases List.mem_cons.1 hplaced with heq | htail
  · -- the node of the file itself is no heading
    obtain ⟨_, rfl⟩ := Prod.mk.inj heq
    have hroot : t.isHeading = true := hheading
    rw [Tree.not_isHeading_of_isFile hfile] at hroot
    exact absurd hroot Bool.false_ne_true
  · rw [List.tail_cons] at hshown
    have hmem := List.mem_map_of_mem (f := Shown.ofNode) htail
    rw [hshown] at hmem
    obtain ⟨p, hp, hnode⟩ := List.mem_flatMap.1 hmem
    rcases List.mem_cons.1 hnode with heq | hown
    · exact ⟨p, hp, congrArg Shown.label heq, congrArg Shown.range heq, congrArg Shown.tags heq⟩
    · obtain ⟨a, _, heq⟩ := List.mem_map.1 hown
      have hno : false = true := (congrArg Shown.isHeading heq).trans hheading
      exact absurd hno Bool.false_ne_true

/-- The headings of a file have the labels, ranges and tags of the first headings of their names,
each name once. A name that the text declares is missing if and only if its first heading lies below
a heading whose name was used before. -/
theorem plantText_headings (text : List Char) (stamp : Option Int)
    (hkey : s.hierarchy.node? key = some root) (hfile : root.isFile = true) :
    ∃ t, (s.plantText key text stamp).2.hierarchy.tree? key = some t ∧
      (labels t.preorder).Nodup ∧
      (∀ e ∈ t.preorder, e.content.isHeading = true →
        ∃ h, (Source.headings (scan text)).find? (fun h => h.name == e.content.label) = some h ∧
          e.content.range = some h.range ∧ e.content.tags = h.tags) ∧
      ∀ before p after,
        Outline.place 0 [] (Outline.blocks (scan text)).2 = before ++ p :: after →
          p.repeated = false →
            (p.name ∈ labels t.preorder ↔ ¬Outline.BelowRepeated before p.level) := by
  obtain ⟨t, htree, htest, hlabels, hshown⟩ := plantText_kept text stamp hkey hfile
  refine ⟨t, htree, htest.nodup_labels, ?_, ?_⟩
  · intro e he hheading
    obtain ⟨p, hp, hlabel, hrange, htags⟩ := exists_mem_kept htest.isFile hshown he hheading
    obtain ⟨hmem, hnew⟩ := List.mem_filter.1 ((Outline.kept_sublist none _).subset hp)
    obtain ⟨before, after, hsplit⟩ := List.append_of_mem hmem
    refine ⟨p.block.heading, ?_, hrange, htags⟩
    rw [hlabel]
    exact Outline.find?_headings hsplit (by simpa using hnew)
  · intro before p after hsplit hp
    rw [hlabels]
    exact Outline.name_mem_kept hsplit hp

/-- A class that declares a test twice, and then another one below the repeated one. -/
def repeatedText : List Char :=
  ("Function test_a($t : Object)\n" ++
    "Function test_a($t : Object)\n" ++
    "// #tags: slow:deep\n" ++
    "Function test_b($t : Object)\n").toList

theorem place_repeatedText :
    Outline.place 0 [] (Outline.blocks (scan repeatedText)).2 =
      [⟨1, false, ⟨⟨.ofPoints 0 0 0 28, "test_a", 1, ["unit"]⟩, []⟩⟩,
        ⟨1, true, ⟨⟨.ofPoints 1 0 1 28, "test_a", 1, ["unit"]⟩, []⟩⟩,
        ⟨2, false, ⟨⟨.ofPoints 3 0 3 28, "test_b", 2, ["slow:deep"]⟩, []⟩⟩] := by
  decide +kernel

theorem plantText_headings_repeatedText :
    ∃ t, (oneFile.plantText 0 repeatedText none).2.hierarchy.tree? 0 = some t ∧
      "test_a" ∈ labels t.preorder ∧ "test_b" ∉ labels t.preorder := by
  obtain ⟨t, htree, _, _, hmem⟩ := plantText_headings repeatedText none node?_oneFile rfl
  refine ⟨t, htree, ?_, ?_⟩
  · refine (hmem [] _ _ place_repeatedText rfl).2 ?_
    rintro ⟨outer, _, _, hnil, _⟩
    exact absurd hnil (by simp)
  · intro hb
    refine (hmem [_, _] _ [] place_repeatedText rfl).1 hb ⟨[_], _, [], rfl, rfl, ?_, ?_⟩
    · decide
    · simp

/-- The class declares `test_b` once, and has no node for it. -/
theorem labels_repeatedText :
    (Source.headings (scan repeatedText)).map Heading.name = ["test_a", "test_a", "test_b"] ∧
      ((oneFile.plantText 0 repeatedText none).2.hierarchy.tree? 0).map
        (fun t => labels t.preorder) = some ["test_a"] := by
  decide +kernel

end Session

end SuiteAtlas
