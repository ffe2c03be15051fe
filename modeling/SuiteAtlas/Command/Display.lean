import SuiteAtlas.Console.Branch
import SuiteAtlas.Console.Table
import SuiteAtlas.Run
import SuiteAtlas.Session

namespace SuiteAtlas.Display

open Console (Branch Table)

def escaped (text : String) : String :=
  String.ofList (Console.Markup.escape text.toList)

/-- The line on which a node starts, counted from one, or a dash. -/
def lineText (n : Node) : String :=
  match n.range with
  | some range => toString (range.start.line + 1)
  | none => "-"

def headingLabel (n : Node) : String :=
  let tags := ", ".intercalate n.tags
  s!"{escaped n.label} [dim]({escaped tags}) line {lineText n}[/dim]"

def assertionLabel (n : Node) (data : AssertionInfo) : String :=
  s!"{escaped n.label} [dim]{escaped data.operator} line {lineText n}[/dim]"

mutual

/-- A heading with its assertions and the headings below it. -/
def headingBranch : Tree → Branch
  | .node _ content children => .node (headingLabel content) (childBranches children)

def childBranches : List Tree → List Branch
  | [] => []
  | t :: rest =>
    match t.content.data with
    | some (.assertion data) => .node (assertionLabel t.content data) [] :: childBranches rest
    | some (.heading ..) => headingBranch t :: childBranches rest
    | _ => childBranches rest

end

def fileBranch (t : Tree) : Branch :=
  .node s!"[cyan]{escaped t.content.label}[/cyan]"
    ((t.children.filter Tree.isHeading).map headingBranch)

def testTree (title : String) (s : Session) : Branch :=
  .node s!"[bold]{escaped title}[/bold]" (s.hierarchy.rootTrees.map fileBranch)

def tagTable (counts : List (String × Nat)) : Table :=
  { columns := [⟨"tag", .left⟩, ⟨"tests", .right⟩]
    rows := counts.map fun (tag, count) => [escaped tag, toString count] }

def statusLabel : Status → String
  | .passed => "[green]passed[/green]"
  | .failed => "[red]failed[/red]"
  | .started => "[yellow]no result[/yellow]"

/-- The row of a node to which something happened. -/
def resultRow? (latest : List (String × RunEvent)) (n : Node) (label : String) :
    Option (List String) :=
  (latest.lookup n.id).map fun event =>
    let message := Text.firstLine (event.message.getD "").toList
    [label, statusLabel event.status, (event.duration.map Duration.toTableText).getD "",
      lineText n, escaped (String.ofList message)]

def resultLabel (heading : Node) : String :=
  s!"{escaped heading.suite}.{escaped heading.label}"

def resultRows (latest : List (String × RunEvent)) (heading : Tree) : List (List String) :=
  (resultRow? latest heading.content (resultLabel heading.content)).toList ++
    (heading.children.filter Tree.isAssertion).filterMap fun child =>
      resultRow? latest child.content s!"  {escaped child.content.label}"

def resultTable (run : Run) (headings : List Tree) : Table :=
  { columns := [⟨"test", .left⟩, ⟨"status", .left⟩, ⟨"ms", .right⟩, ⟨"line", .right⟩,
      ⟨"message", .left⟩]
    rows := headings.flatMap (resultRows run.lastEvents) }

end SuiteAtlas.Display
