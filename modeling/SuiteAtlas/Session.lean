import SuiteAtlas.TestFiles
import SuiteAtlas.Outline.Planting
import SuiteAtlas.Source.Numbering
import SuiteAtlas.KnownTags

/-!
A session: the hierarchy of the tests of a workspace, its tags, and the counter of passes.

Reading a file anew gives its node other children and touches nothing else; a file that declares no
test, or is no longer there, leaves the hierarchy. A file that cannot be read keeps what it had.
-/

namespace SuiteAtlas

structure Session where
  workspace : Path
  settings : Settings
  hierarchy : Hierarchy := {}
  tags : KnownTags := {}
  stamp : Int := 0
  deriving Repr

namespace Session

/-- A number for the next pass, greater than those of all passes before. -/
def nextStamp (s : Session) : Int × Session :=
  (s.stamp + 1, { s with stamp := s.stamp + 1 })

/-- The root of a file with an absolute path, which is added if it is new. -/
def rootFor (s : Session) (resolved : Path) : Key × Session :=
  match s.hierarchy.root? resolved.toString with
  | some key => (key, s)
  | none =>
    let (key, h) := s.hierarchy.create
      { id := resolved.toString, label := resolved.name, file := some resolved, data := some .file }
    (key, { s with hierarchy := h.putRoot key })

/-- Adds a root for a file that exists nowhere but in the session. -/
def addVirtual (s : Session) (id label : String) : Key × Session :=
  let (key, h) := s.hierarchy.create { id, label, data := some .file }
  (key, { s with hierarchy := h.putRoot key })

/-- Gives a node the children that a text declares, in a pass of its own unless a stamp is given.
Tells whether the text declares a test; if it does not, the node leaves the hierarchy. -/
def plantText (s : Session) (key : Key) (text : List Char) (stamp : Option Int) :
    Bool × Session :=
  let (stamp, s) :=
    match stamp with
    | some stamp => (stamp, s)
    | none => s.nextStamp
  let events := Source.scan text
  let h := s.hierarchy.plantOutline key stamp (Outline.ofEvents events)
  let tags := s.tags.resolveAll ((Source.headings events).flatMap Source.Heading.tags)
  let found := Source.declaresTest events
  let h := if found then h else ((h.id? key).map h.dropRoot).getD h
  (found, { s with hierarchy := h, tags })

/-- Reads the file of a node anew, if there is one to read. -/
def plantFile (s : Session) (files : Files) (key : Key) (stamp : Option Int) :
    Bool × Session :=
  match ((s.hierarchy.node? key).bind Node.file).bind files.text? with
  | some text => s.plantText key text stamp
  | none => (false, s)

/-- Reads one file anew: its node, if it declares a test. -/
def refresh (s : Session) (files : Files) (path : Path) :
    Except FileError (Option Key × Session) := do
  let resolved ← files.resolve path
  if ← files.isFile resolved then
    let (key, s) := s.rootFor resolved
    let (found, s) := s.plantFile files key none
    return (if found then some key else none, s)
  else
    return (none, { s with hierarchy := s.hierarchy.dropRoot resolved.toString })

def refreshAll (s : Session) (files : Files) : List Path → Except FileError Session
  | [] => .ok s
  | path :: rest => do
    let (_, s) ← s.refresh files path
    s.refreshAll files rest

/-- Reads all files below a root that may declare tests. -/
def discover (s : Session) (files : Files) (root : Path) : Except SearchError Session := do
  let paths ← testFiles files s.settings root
  (s.refreshAll files paths).mapError .file

def headings (s : Session) : List Tree :=
  s.hierarchy.headings

/-- The heading of a suite and a name: the first one with the name in the first file of the suite
that has one. -/
def headingNamed? (s : Session) (suite name : String) : Option Tree :=
  s.hierarchy.rootTrees.findSome? fun root =>
    if root.content.suite == suite then
      root.headings.find? fun heading => heading.content.label == name
    else none

/-- Every tag that a heading carries, in ascending order, with the number of times. -/
def countTags (s : Session) : List (String × Nat) :=
  let tags := s.headings.flatMap fun heading => heading.content.tags
  let names := tags.eraseDups.mergeSort fun a b => !decide (b < a)
  names.map fun name => (name, tags.count name)

/-- Forgets all tags and takes all files out of the hierarchy. -/
def close (s : Session) : Session :=
  { s with hierarchy := { s.hierarchy with roots := [] }, tags := s.tags.clear }

/-- The line of a file on which a logical line of a function ends. -/
def physicalLineOf? (files : Files) (path : Path) (name : String) (offset : Int) :
    Except FileError (Option Nat) :=
  if path.hasNull then .error .nullInName
  else .ok ((files.text? path).bind fun text => Source.physicalLine? text name.toList offset)

end Session

end SuiteAtlas
