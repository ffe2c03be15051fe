import SuiteAtlas.Path
import SuiteAtlas.Source.Range
import SuiteAtlas.Text.Printable

/-!
The table of test nodes.

Nodes refer to each other by key, so that a node which has left the tree can still be read. A
node keeps its children in order, each id once; giving it other children makes it their parent,
while the former ones keep naming it as theirs. Roots are kept in the order of their first
addition, each id once.
-/

namespace SuiteAtlas

/-- The place of a node in the table. -/
abbrev Key := Nat

/-- Whether an assertion was read from a source file or from a report. -/
inductive Origin
  | source
  | result
  deriving DecidableEq, Repr

structure AssertionInfo where
  file : String
  actual : String
  operator : String
  expected : String
  should : String
  stamp : Int
  origin : Origin := .source
  fullMessage : String := ""
  deriving DecidableEq, Repr

/-- What a node stands for. -/
inductive NodeData
  | file
  | heading (stamp : Int) (tagDepth : Nat)
  | assertion (data : AssertionInfo)
  deriving DecidableEq, Repr

/-- An assertion is called after its message, or else after its operator and actual value. -/
def AssertionInfo.label (data : AssertionInfo) : String :=
  if data.should ≠ "" then data.should else s!"{data.operator}({data.actual})"

namespace NodeData

def isFile : NodeData → Bool
  | .file => true
  | _ => false

def isHeading : NodeData → Bool
  | .heading .. => true
  | _ => false

def isAssertion : NodeData → Bool
  | .assertion _ => true
  | _ => false

def stamp? : NodeData → Option Int
  | .file => none
  | .heading stamp _ => some stamp
  | .assertion data => some data.stamp

end NodeData

structure Node where
  id : String
  label : String
  file : Option Path := none
  parentId : Option String := none
  parent : Option Key := none
  range : Option Source.Range := none
  tags : List String := []
  data : Option NodeData := none
  children : List Key := []
  deriving DecidableEq, Repr

namespace Node

def isFile (n : Node) : Bool := n.data.any NodeData.isFile
def isHeading (n : Node) : Bool := n.data.any NodeData.isHeading
def isAssertion (n : Node) : Bool := n.data.any NodeData.isAssertion
def stamp? (n : Node) : Option Int := n.data.bind NodeData.stamp?

/-- The suite of a node is the name of its file without suffix. -/
def suite (n : Node) : String :=
  (n.file.map Path.stem).getD ""

def fileText (n : Node) : String :=
  (n.file.map Path.toString).getD ""

def withParent (parent : Option Key) (n : Node) : Node :=
  { n with parent }

def withChildren (children : List Key) (n : Node) : Node :=
  { n with children }

/-- How a node is shown in messages to developers. -/
def description (n : Node) : String :=
  s!"InMemoryTestNode(id={Text.quoted n.id}, label={Text.quoted n.label})"

end Node

structure Hierarchy where
  nodes : Array Node := #[]
  roots : List Key := []
  deriving Repr

namespace Hierarchy

def node? (h : Hierarchy) (key : Key) : Option Node :=
  h.nodes[key]?

/-- Adds a node, in no relation to others but those it names. -/
def create (h : Hierarchy) (node : Node) : Key × Hierarchy :=
  (h.nodes.size, { h with nodes := h.nodes.push node })

def modify (h : Hierarchy) (key : Key) (change : Node → Node) : Hierarchy :=
  { h with nodes := h.nodes.modify key change }

def id? (h : Hierarchy) (key : Key) : Option String :=
  (h.node? key).map Node.id

def distinctIds (h : Hierarchy) (keys : List Key) : List Key :=
  keys.foldl (fun kept key =>
    if kept.any fun k => h.id? k == h.id? key then kept else kept ++ [key]) []

def setParent (h : Hierarchy) (parent : Option Key) (keys : List Key) : Hierarchy :=
  keys.foldl (fun h key => h.modify key (Node.withParent parent)) h

/-- Gives a node other children, of each id the first, and makes it their parent. -/
def setChildren (h : Hierarchy) (key : Key) (children : List Key) : Hierarchy :=
  let kept := h.distinctIds children
  (h.setParent (some key) kept).modify key (Node.withChildren kept)

def child? (h : Hierarchy) (key : Key) (id : String) : Option Key :=
  ((h.node? key).map Node.children |>.getD []).find? fun k => h.id? k == some id

def root? (h : Hierarchy) (id : String) : Option Key :=
  h.roots.find? fun key => h.id? key == some id

/-- Adds a root; a root of the same id gives its place to it. -/
def putRoot (h : Hierarchy) (key : Key) : Hierarchy :=
  let h := h.setParent none [key]
  let same := fun k => h.id? k == h.id? key
  if h.roots.any same then
    { h with roots := h.roots.map fun k => if same k then key else k }
  else { h with roots := h.roots ++ [key] }

def dropRoot (h : Hierarchy) (id : String) : Hierarchy :=
  { h with roots := h.roots.filter fun key => h.id? key != some id }

/-- Climbs from a node to the direct child of the topmost one, in at most `fuel` steps. -/
def climb (h : Hierarchy) : Nat → Key → Key
  | 0, key => key
  | fuel + 1, key =>
    match (h.node? key).bind Node.parent with
    | none => key
    | some parent =>
      match (h.node? parent).bind Node.parent with
      | none => key
      | some _ => h.climb fuel parent

/-- The test function that a node belongs to. -/
def enclosingTest (h : Hierarchy) (key : Key) : Key :=
  h.climb h.nodes.size key

end Hierarchy

end SuiteAtlas
