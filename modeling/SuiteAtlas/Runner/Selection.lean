import SuiteAtlas.Session

namespace SuiteAtlas

/-- A test as the runner knows it. -/
structure Target where
  suite : String
  function : String
  deriving DecidableEq, Repr

namespace Target

def qualified (t : Target) : String :=
  s!"{t.suite}.{t.function}"

def ofNode (n : Node) : Target :=
  ⟨n.suite, n.label⟩

end Target

/-- What to run: the given nodes, or everything; and of that the tests with a tag, or all. -/
structure Request where
  targets : Option (List Key) := none
  tag : Option String := none
  deriving DecidableEq, Repr

namespace Session

/-- The tests that a chosen node stands for: all of a file, or the test that it belongs to. -/
def testsOf (s : Session) (key : Key) : List Tree :=
  match s.hierarchy.node? key with
  | some node =>
    if node.isFile then ((s.hierarchy.tree? key).map Tree.headings).getD []
    else (s.hierarchy.tree? (s.hierarchy.enclosingTest key)).toList
  | none => []

/-- The trees without those whose target an earlier one has. -/
def distinctTargets (trees : List Tree) : List Tree :=
  trees.foldl (fun kept t =>
    if kept.any fun k => Target.ofNode k.content == Target.ofNode t.content then kept
    else kept ++ [t]) []

/-- The tests of a request, each target once. -/
def select (s : Session) (request : Request) : List Tree :=
  let candidates :=
    match request.targets with
    | none => s.headings
    | some keys => keys.flatMap s.testsOf
  let candidates :=
    match request.tag with
    | none => candidates
    | some tag => candidates.filter fun t => t.content.tags.contains tag
  distinctTargets candidates

end Session

def targetsOf (nodes : List Node) : List Target :=
  (nodes.map Target.ofNode).eraseDups

/-- The arguments that tell the runner what to run: the tag, or else the chosen tests, or nothing
for everything. -/
def runnerArguments (targets : List Target) (chosen : Bool) (tag : Option String) :
    List String :=
  let selection :=
    match tag with
    | some tag => [s!"tag={tag}"]
    | none => if chosen then ["test=" ++ ",".intercalate (targets.map Target.qualified)] else []
  ["test", "format=json"] ++ selection

end SuiteAtlas
