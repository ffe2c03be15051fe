import SuiteAtlas.Console.Layout
import SuiteAtlas.Console.Markup

namespace SuiteAtlas.Console

inductive Branch
  | node (label : String) (below : List Branch)

namespace Branch

/-- The lines of a label behind the guides of its first line and of the others. -/
def labelLines (first others : List Char) (label : String) :
    Except Markup.Error (List (List Char)) := do
  match shownLines (← Markup.shown label.toList) with
  | [] => return []
  | line :: rest => return (first ++ line) :: rest.map (others ++ ·)

mutual

/-- The lines of a branch behind the guides of its first line and of the others. -/
def linesFrom (first others : List Char) : Branch → Except Markup.Error (List (List Char))
  | .node label below => do
    return (← labelLines first others label) ++ (← linesBelow others below)

def linesBelow (guides : List Char) : List Branch → Except Markup.Error (List (List Char))
  | [] => .ok []
  | [last] => last.linesFrom (guides ++ "└── ".toList) (guides ++ "    ".toList)
  | branch :: next :: rest => do
    let lines ← branch.linesFrom (guides ++ "├── ".toList) (guides ++ "│   ".toList)
    return lines ++ (← linesBelow guides (next :: rest))

end

def lines (b : Branch) : Except Markup.Error (List (List Char)) :=
  b.linesFrom [] []

end Branch

end SuiteAtlas.Console
