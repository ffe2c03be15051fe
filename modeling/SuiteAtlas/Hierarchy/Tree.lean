import SuiteAtlas.Hierarchy.Basic

namespace SuiteAtlas

/-- A node with its key and the trees of its children. -/
inductive Tree
  | node (key : Key) (content : Node) (children : List Tree)

namespace Tree

def key : Tree → Key
  | .node key _ _ => key

def content : Tree → Node
  | .node _ content _ => content

def children : Tree → List Tree
  | .node _ _ children => children

def isHeading (t : Tree) : Bool := t.content.isHeading
def isAssertion (t : Tree) : Bool := t.content.isAssertion

/-- A node apart from the nodes below it. -/
structure Entry where
  key : Key
  content : Node

def entry (t : Tree) : Entry :=
  ⟨t.key, t.content⟩

mutual

/-- The nodes of a tree, every node before those below it. -/
def preorder : Tree → List Entry
  | .node key content children => ⟨key, content⟩ :: preorderAll children

def preorderAll : List Tree → List Entry
  | [] => []
  | t :: rest => t.preorder ++ preorderAll rest

end

mutual

def headings : Tree → List Tree
  | .node _ _ children => headingsIn children

def headingsIn : List Tree → List Tree
  | [] => []
  | t :: rest => (if t.isHeading then t :: t.headings else []) ++ headingsIn rest

end

mutual

def size : Tree → Nat
  | .node _ _ children => sizeAll children + 1

def sizeAll : List Tree → Nat
  | [] => 0
  | t :: rest => t.size + sizeAll rest

end

theorem sizeAll_append (ts us : List Tree) : sizeAll (ts ++ us) = sizeAll ts + sizeAll us := by
  induction ts with
  | nil => simp [sizeAll]
  | cons t ts ih => simp [sizeAll, ih, Nat.add_assoc]

def walk : List Tree → List Entry
  | [] => []
  | .node key content children :: rest => ⟨key, content⟩ :: walk (children ++ rest)
  termination_by trees => sizeAll trees
  decreasing_by simp [sizeAll, sizeAll_append, size]

end Tree

namespace Hierarchy

/-- The tree below a key, read down to `depth` levels. -/
def treeAt (h : Hierarchy) : Nat → Key → Option Tree
  | 0, _ => none
  | depth + 1, key =>
    (h.node? key).map fun node => .node key node (node.children.filterMap (h.treeAt depth))

/-- The tree below a key. No way down is longer than the table. -/
def tree? (h : Hierarchy) (key : Key) : Option Tree :=
  h.treeAt h.nodes.size key

def trees (h : Hierarchy) (keys : List Key) : List Tree :=
  keys.filterMap h.tree?

def rootTrees (h : Hierarchy) : List Tree :=
  h.trees h.roots

/-- All nodes, depth first. -/
def walk (h : Hierarchy) : List Tree.Entry :=
  Tree.walk h.rootTrees

/-- All headings, file by file. -/
def headings (h : Hierarchy) : List Tree :=
  h.rootTrees.flatMap Tree.headings

end Hierarchy

end SuiteAtlas
