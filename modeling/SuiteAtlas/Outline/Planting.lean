import SuiteAtlas.Hierarchy.Tree
import SuiteAtlas.Outline.Basic

/-!
Planting an outline in the table of nodes.

Every heading and assertion becomes a node of its own, a heading with its assertions before the
headings below it. Ids are the way to a node: a heading adds its name to the id of the file, an
assertion its position to the id of its heading.
-/

namespace SuiteAtlas

open Source (Assertion Heading)

/-- What the nodes of one pass over a file have in common. -/
structure Site where
  id : String
  file : Option Path
  stamp : Int
  deriving DecidableEq, Repr

namespace Site

def fileText (site : Site) : String :=
  (site.file.map Path.toString).getD ""

def headingId (site : Site) (heading : Heading) : String :=
  s!"{site.id}/{heading.name}"

def assertionId (parentId : String) (a : Assertion) : String :=
  s!"{parentId}/{a.range.start.line}:{a.range.start.column}"

def headingNode (site : Site) (parentId : String) (heading : Heading) : Node :=
  { id := site.headingId heading
    label := heading.name
    file := site.file
    parentId := some parentId
    range := some heading.range
    tags := heading.tags
    data := some (.heading site.stamp heading.tagDepth) }

def assertionData (site : Site) (a : Assertion) : AssertionInfo :=
  { file := site.fileText
    actual := a.actual
    operator := a.operator
    expected := a.expected
    should := a.should
    stamp := site.stamp
    fullMessage := a.should }

/-- The node of an assertion below the node `parentId`, whose tags it shares. -/
def assertionNode (site : Site) (parentId : String) (tags : List String) (a : Assertion) : Node :=
  let data := site.assertionData a
  { id := assertionId parentId a
    label := data.label
    file := site.file
    parentId := some parentId
    range := some a.range
    tags := tags
    data := some (.assertion data) }

end Site

namespace Hierarchy

def createAll (h : Hierarchy) : List Node → List Key × Hierarchy
  | [] => ([], h)
  | node :: rest =>
    let (key, h) := h.create node
    let (keys, h) := h.createAll rest
    (key :: keys, h)

mutual

/-- Plants a section below the node `parentId`. -/
def plant (site : Site) (parentId : String) (h : Hierarchy) : Section → Key × Hierarchy
  | .mk heading assertions nested =>
    let node := site.headingNode parentId heading
    let (key, h) := h.create node
    let (own, h) := h.createAll (assertions.map (site.assertionNode node.id heading.tags))
    let (below, h) := plantAll site node.id h nested
    (key, h.setChildren key (own ++ below))

def plantAll (site : Site) (parentId : String) (h : Hierarchy) :
    List Section → List Key × Hierarchy
  | [] => ([], h)
  | s :: rest =>
    let (key, h) := plant site parentId h s
    let (keys, h) := plantAll site parentId h rest
    (key :: keys, h)

end

/-- Gives the node of a key the children that an outline describes. The assertions before the
first heading have a place only below a heading. -/
def plantOutline (h : Hierarchy) (key : Key) (stamp : Int) (outline : Outline) : Hierarchy :=
  match h.node? key with
  | none => h
  | some node =>
    let site : Site := ⟨node.id, node.file, stamp⟩
    let loose := if node.isHeading then outline.loose else []
    let (own, h) := h.createAll (loose.map (site.assertionNode node.id node.tags))
    let (below, h) := h.plantAll site node.id outline.sections
    h.setChildren key (own ++ below)

end Hierarchy

end SuiteAtlas
