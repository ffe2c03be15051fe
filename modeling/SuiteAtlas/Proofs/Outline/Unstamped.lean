import SuiteAtlas.Proofs.Outline.Planting

namespace SuiteAtlas

open Source
open SuiteAtlas.Tree (adopt leaves)

def AssertionInfo.unstamped (data : AssertionInfo) : AssertionInfo :=
  { data with stamp := 0 }

def NodeData.unstamped : NodeData → NodeData
  | .file => .file
  | .heading _ tagDepth => .heading 0 tagDepth
  | .assertion data => .assertion data.unstamped

def Node.unstamped (n : Node) : Node :=
  { n with parent := none, children := [], data := n.data.map NodeData.unstamped }

namespace Tree

/-- A tree whose nodes have neither keys nor the numbers of their passes. -/
def unstamped : Tree → Tree
  | .node _ content children => .node 0 content.unstamped (children.map unstamped)

theorem unstamped_eq (t : Tree) :
    t.unstamped = .node 0 t.content.unstamped (t.children.map unstamped) := by
  cases t
  rw [unstamped]
  rfl

theorem unstamped_withParent (k : Key) (t : Tree) : (t.withParent k).unstamped = t.unstamped := by
  rw [unstamped_eq, unstamped_eq t, withParent_children, withParent_content]
  rfl

theorem unstamped_adopt (key : Key) (content : Node) (cs : List Tree) :
    (adopt key content cs).unstamped = .node 0 content.unstamped (cs.map unstamped) := by
  rw [unstamped_eq]
  change Tree.node 0 content.unstamped ((cs.map (Tree.withParent key)).map unstamped) = _
  rw [List.map_map]
  congr 1
  exact List.map_congr_left fun c _ => unstamped_withParent key c

theorem map_unstamped_leaves (next : Key) (nodes : List Node) :
    (leaves next nodes).map unstamped = nodes.map fun n => .node 0 n.unstamped [] := by
  induction nodes generalizing next with
  | nil => rfl
  | cons first rest ih =>
    rw [leaves, List.map_cons, List.map_cons, ih, unstamped]
    rfl

end Tree

namespace Site

variable {site other : Site} {parentId : String}

theorem unstamped_headingNode (hid : site.id = other.id) (hfile : site.file = other.file)
    (heading : Heading) :
    (site.headingNode parentId heading).unstamped =
      (other.headingNode parentId heading).unstamped := by
  rw [headingNode, headingNode, headingId, headingId, hid, hfile]
  rfl

theorem unstamped_assertionNode (hfile : site.file = other.file) (tags : List String)
    (a : Assertion) :
    (site.assertionNode parentId tags a).unstamped =
      (other.assertionNode parentId tags a).unstamped := by
  rw [assertionNode, assertionNode, assertionData, assertionData, fileText, fileText, hfile]
  rfl

theorem map_unstamped_forest_of {sections : List Section}
    (hs : ∀ s ∈ sections, ∀ (parentId : String) (next next' : Key),
      (site.tree parentId next s).unstamped = (other.tree parentId next' s).unstamped)
    (parentId : String) (next next' : Key) :
    (site.forest parentId next sections).map Tree.unstamped =
      (other.forest parentId next' sections).map Tree.unstamped := by
  induction sections generalizing next next' with
  | nil => rw [forest, forest]
  | cons s rest ih =>
    rw [forest, forest, List.map_cons, List.map_cons, hs s List.mem_cons_self parentId next next',
      ih fun r hr => hs r (List.mem_cons_of_mem _ hr)]

/-- The same section of the same file gives the same tree, wherever it is planted. -/
theorem unstamped_tree (hid : site.id = other.id) (hfile : site.file = other.file) (s : Section)
    (parentId : String) (next next' : Key) :
    (site.tree parentId next s).unstamped = (other.tree parentId next' s).unstamped := by
  induction s using Section.induct generalizing parentId next next' with
  | mk heading assertions nested ih =>
    have hheading : (site.headingNode parentId heading).id =
        (other.headingNode parentId heading).id := by
      change site.headingId heading = other.headingId heading
      rw [headingId, headingId, hid]
    have hown (start : Key) (parent : String) : (leaves start (assertions.map
        (site.assertionNode parent heading.tags))).map Tree.unstamped =
          assertions.map fun a =>
            .node 0 (other.assertionNode parent heading.tags a).unstamped [] := by
      rw [Tree.map_unstamped_leaves, List.map_map]
      exact List.map_congr_left fun a _ => by
        rw [Function.comp_apply, unstamped_assertionNode hfile]
    rw [tree, tree, Tree.unstamped_adopt, Tree.unstamped_adopt,
      unstamped_headingNode hid hfile heading, List.map_append, List.map_append, hown, hheading,
      map_unstamped_forest_of ih _ _ (next' + 1 + assertions.length), Tree.map_unstamped_leaves,
      List.map_map]
    rfl

theorem map_unstamped_forest (hid : site.id = other.id) (hfile : site.file = other.file)
    (sections : List Section) (parentId : String) (next next' : Key) :
    (site.forest parentId next sections).map Tree.unstamped =
      (other.forest parentId next' sections).map Tree.unstamped :=
  map_unstamped_forest_of (fun s _ => unstamped_tree hid hfile s) parentId next next'

end Site

end SuiteAtlas
