import SuiteAtlas.Proofs.Outline.Shown
import SuiteAtlas.Session

namespace SuiteAtlas

open Source
open SuiteAtlas.Tree (adopt)

namespace Hierarchy

variable {h : Hierarchy} {key : Key} {root : Node} {outline : Outline}

def plantedTrees (h : Hierarchy) (root : Node) (stamp : Int) (outline : Outline) : List Tree :=
  Site.forest ⟨root.id, root.file, stamp⟩ root.id h.nodes.size outline.sections

theorem isHeading_of_isFile (hfile : root.isFile = true) : root.isHeading = false :=
  Tree.not_isHeading_of_isFile (t := .node 0 root []) hfile

theorem plantOutline_adds (stamp : Int) (hkey : h.node? key = some root)
    (hfile : root.isFile = true)
    (hb : Block.AreProper (outline.sections.flatMap Section.blocks)) :
    ∃ h', Adds h h' (h.plantedTrees root stamp outline) ∧
      h.plantOutline key stamp outline =
        h'.setChildren key ((h.plantedTrees root stamp outline).map Tree.key) := by
  obtain ⟨hkeys, hadds⟩ := plantAll_adds ⟨root.id, root.file, stamp⟩ outline.sections h
    root.id hb
  refine ⟨_, hadds, ?_⟩
  rw [plantedTrees, ← hkeys, plantOutline, hkey]
  simp only [isHeading_of_isFile hfile, Bool.false_eq_true, if_false, List.map_nil, createAll,
    List.nil_append]

theorem nodup_ids_plantedTrees (h : Hierarchy) (root : Node) (stamp : Int)
    (hb : Block.AreProper (outline.sections.flatMap Section.blocks)) :
    ((h.plantedTrees root stamp outline).map fun c => c.content.id).Nodup :=
  nodup_ids_forest hb _

theorem plantOutline_stands (stamp : Int) (hkey : h.node? key = some root)
    (hfile : root.isFile = true)
    (hb : Block.AreProper (outline.sections.flatMap Section.blocks)) :
    let t := adopt key root (h.plantedTrees root stamp outline)
    t.StandsIn (h.plantOutline key stamp outline) ∧ t.IsLinked ∧ t.keys.Nodup := by
  obtain ⟨h', hadds, he⟩ := plantOutline_adds stamp hkey hfile hb
  have hn : (key :: (h.plantedTrees root stamp outline).flatMap Tree.keys).Nodup := by
    rw [hadds.keys, List.nodup_cons, List.mem_range'_1]
    exact ⟨fun hm => absurd (node?_lt hkey) (Nat.not_lt.2 hm.1), List.nodup_range'⟩
  refine ⟨?_, Tree.isLinked_adopt hadds.linked, ?_⟩
  · rw [he]
    apply Tree.StandsIn.adopt _ hadds.stands hn (nodup_ids_plantedTrees h root stamp hb)
    rw [hadds.old key (node?_lt hkey), hkey]
  · rw [Tree.keys_adopt]
    exact hn

/-- Planting drops nothing: the tree of the file has a node for each event in the outline. -/
theorem size_plantedTree (h : Hierarchy) (key : Key) (root : Node) (stamp : Int)
    (outline : Outline) :
    (adopt key root (h.plantedTrees root stamp outline)).size =
      ((outline.sections.flatMap Section.blocks).flatMap Block.events).length + 1 := by
  rw [Tree.size_adopt, plantedTrees, Shown.size_forest]

theorem plantOutline_isTestFile (h : Hierarchy) (key : Key) (stamp : Int)
    (hfile : root.isFile = true)
    (hb : Block.AreProper (outline.sections.flatMap Section.blocks)) :
    (adopt key root (h.plantedTrees root stamp outline)).IsTestFile := by
  apply Tree.IsTestFile.adopt hfile
  · intro c hc
    obtain ⟨k, s, _, rfl⟩ := Site.exists_of_mem_forest hc
    exact Site.isHeading_tree _ _ k s
  · intro c hc
    obtain ⟨k, s, hs, rfl⟩ := Site.exists_of_mem_forest hc
    exact Site.isHeadingOf_of_mem_tree rfl rfl s (hb.sublist (Section.blocks_sublist hs)) _ k
  · rw [plantedTrees, Site.labels_forest]
    exact hb.nodup_names

end Hierarchy

namespace Session

variable {s : Session} {key : Key} {root : Node}

/-- Planting a text plants its outline; then the file may leave the hierarchy. -/
theorem plantText_hierarchy_eq (s : Session) (key : Key) (text : List Char) (stamp : Option Int) :
    let h := s.hierarchy.plantOutline key (stamp.getD (s.stamp + 1)) (Outline.ofEvents (scan text))
    (s.plantText key text stamp).2.hierarchy =
      if declaresTest (scan text) then h else ((h.id? key).map h.dropRoot).getD h := by
  cases stamp <;> rfl

theorem plantText_hierarchy (s : Session) (key : Key) (text : List Char) (stamp : Option Int) :
    ∃ number, let h := s.hierarchy.plantOutline key number (Outline.ofEvents (scan text))
      (s.plantText key text stamp).2.hierarchy =
        if declaresTest (scan text) then h else ((h.id? key).map h.dropRoot).getD h :=
  ⟨_, plantText_hierarchy_eq s key text stamp⟩

theorem node?_dropRootOf (h : Hierarchy) (key k : Key) :
    (((h.id? key).map h.dropRoot).getD h).node? k = h.node? k := by
  cases h.id? key <;> rfl

theorem tree?_plantText_eq (hkey : s.hierarchy.node? key = some root) (hfile : root.isFile = true)
    (text : List Char) (stamp : Option Int) :
    (s.plantText key text stamp).2.hierarchy.tree? key = some (adopt key root
      (s.hierarchy.plantedTrees root (stamp.getD (s.stamp + 1)) (Outline.ofEvents (scan text)))) := by
  obtain ⟨hstands, hlinked, hn⟩ := Hierarchy.plantOutline_stands (stamp.getD (s.stamp + 1)) hkey
    hfile (Outline.areProper_ofEvents text)
  refine Tree.StandsIn.tree?_eq ?_ hlinked hn
  rw [plantText_hierarchy_eq]
  split
  · exact hstands
  · exact hstands.congr fun k _ => node?_dropRootOf _ key k

theorem tree?_plantText (hkey : s.hierarchy.node? key = some root) (hfile : root.isFile = true)
    (text : List Char) (stamp : Option Int) :
    ∃ number, (s.plantText key text stamp).2.hierarchy.tree? key =
      some (adopt key root
        (s.hierarchy.plantedTrees root number (Outline.ofEvents (scan text)))) :=
  ⟨_, tree?_plantText_eq hkey hfile text stamp⟩

/-- The tree of a file without repeated names shows the events of its text from the first heading
on: every node but the file itself belongs to one event, in order, on the level that the tags give
it, and lies below the node that its level tells. -/
theorem plantText_tree (text : List Char) (stamp : Option Int)
    (hkey : s.hierarchy.node? key = some root) (hfile : root.isFile = true)
    (hnames : ((Source.headings (scan text)).map Heading.name).Nodup) :
    ∃ t, (s.plantText key text stamp).2.hierarchy.tree? key = some t ∧
      t.content = root.withChildren (t.children.map Tree.key) ∧ t.keys.Nodup ∧
      (t.placed 0).tail.map Shown.ofNode =
        Shown.ofEvents 0 [] ((scan text).dropWhile fun e => e.heading?.isNone) ∧
      ∀ before x after, t.placed 0 = before ++ x :: after → before ≠ [] →
        ∃ p, Tree.upFrom before x = some p ∧ x.2.content.parent = some p.2.key := by
  have hb := Outline.areProper_ofEvents text
  obtain ⟨number, htree⟩ := tree?_plantText hkey hfile text stamp
  obtain ⟨_, hlinked, hn⟩ := Hierarchy.plantOutline_stands number hkey hfile hb
  have htest := Hierarchy.plantOutline_isTestFile s.hierarchy key number hfile hb
  refine ⟨_, htree, ?_, hn, ?_, fun before x after hx hne => htest.upFrom_eq hlinked hx hne⟩
  · rw [adopt, Tree.content, Tree.children, List.map_map]
    congr 1
    exact List.map_congr_left fun c _ => (Tree.withParent_key c).symm
  · rw [List.map_tail, Shown.map_ofNode_adopt, List.tail_cons]
    exact Outline.map_ofNode_planted _ _ _ hnames

/-- A class with a loose assertion and two tests, of which the second lies below the first. -/
def nestedText : List Char :=
  ("$t.assert.isTrue($t; 1; 1)\n" ++
    "Function test_outer($t : Object)\n" ++
    "\t$t.assert.areEqual($t; \\\n\t\t1; 2; \"sum\")\n" ++
    "// #tags: slow:deep\n" ++
    "Function test_inner($t : Object)\n" ++
    "\t$t.assert.isNull($t; $x)\n").toList

/-- A session that knows one file, whose node has the key 0. -/
def oneFile : Session :=
  (rootFor { workspace := ⟨"/", []⟩, settings := .default } ⟨"/", ["T.4dm"]⟩).2

theorem node?_oneFile : oneFile.hierarchy.node? 0 = some
    { id := "/T.4dm", label := "T.4dm", file := some ⟨"/", ["T.4dm"]⟩, data := some .file } := by
  decide +kernel

theorem plantText_tree_nestedText :
    ∃ t, (oneFile.plantText 0 nestedText none).2.hierarchy.tree? 0 = some t ∧
      (t.placed 0).tail.map Shown.ofNode =
        [⟨1, true, false, some (.ofPoints 1 0 1 32), "test_outer", ["unit"]⟩,
          ⟨2, false, true, some (.ofPoints 2 1 3 14), "sum", ["unit"]⟩,
          ⟨2, true, false, some (.ofPoints 5 0 5 32), "test_inner", ["slow:deep"]⟩,
          ⟨3, false, true, some (.ofPoints 6 1 6 25), "isNull($x)", ["slow:deep"]⟩] := by
  have hshown : Shown.ofEvents 0 [] ((scan nestedText).dropWhile fun e => e.heading?.isNone) =
      [⟨1, true, false, some (.ofPoints 1 0 1 32), "test_outer", ["unit"]⟩,
        ⟨2, false, true, some (.ofPoints 2 1 3 14), "sum", ["unit"]⟩,
        ⟨2, true, false, some (.ofPoints 5 0 5 32), "test_inner", ["slow:deep"]⟩,
        ⟨3, false, true, some (.ofPoints 6 1 6 25), "isNull($x)", ["slow:deep"]⟩] := by
    decide +kernel
  obtain ⟨t, htree, _, _, hnodes, _⟩ :=
    plantText_tree nestedText none node?_oneFile rfl (by decide +kernel)
  exact ⟨t, htree, hnodes.trans hshown⟩

end Session

end SuiteAtlas
