import SuiteAtlas.Console.Layout
import SuiteAtlas.Console.Markup

namespace SuiteAtlas.Console

structure Column where
  title : String
  align : Align := .left
  deriving DecidableEq, Repr

structure Table where
  columns : List Column
  rows : List (List String)
  deriving DecidableEq, Repr

/-- A column with the texts that its cells show, the title first. -/
structure Strip where
  align : Align
  cells : List (List Char)

/-- The lines by which the width of a text is measured. -/
def measuredLines (text : List Char) : List (List Char) :=
  text.splitOnP Text.isLineBreak

def Strip.width (s : Strip) : Nat :=
  ((s.cells.flatMap measuredLines).map Console.width).foldl max 0

/-- The lines of the cell in a row, with a space on both sides. -/
def Strip.cellLines (s : Strip) (row : Nat) : List (List Char) :=
  (s.align.lines s.width (s.cells[row]?.getD [])).map fun line => ' ' :: line ++ [' ']

/-- The vertical lines of a row: before, between and after its cells. -/
structure Verticals where
  left : Char
  inner : Char
  right : Char

def Verticals.same (c : Char) : Verticals := ⟨c, c, c⟩

/-- The parts of one line of a row, between vertical lines. -/
def Verticals.join (v : Verticals) (parts : List (List Char)) : List Char :=
  v.left :: (parts.intersperse [v.inner]).flatten ++ [v.right]

/-- A horizontal line across the columns. -/
def rule (v : Verticals) (line : Char) (strips : List Strip) : List Char :=
  v.join (strips.map fun s => List.replicate (s.width + 2) line)

/-- The lines of a row: it is as high as its highest cell. -/
def rowLines (v : Verticals) (strips : List Strip) (row : Nat) : List (List Char) :=
  let cells := strips.map fun s => (s.width, s.cellLines row)
  let height := (cells.map fun cell => cell.2.length).foldl max 0
  (List.range height).map fun i =>
    v.join (cells.map fun cell => cell.2[i]?.getD (List.replicate (cell.1 + 2) ' '))

def tableLines (strips : List Strip) (rows : Nat) : List (List Char) :=
  rule ⟨'┏', '┳', '┓'⟩ '━' strips :: rowLines (.same '┃') strips 0 ++
    rule ⟨'┡', '╇', '┩'⟩ '━' strips ::
    ((List.range rows).flatMap fun row => rowLines (.same '│') strips (row + 1)) ++
    [rule ⟨'└', '┴', '┘'⟩ '─' strips]

def Table.strip (t : Table) (index : Nat) (column : Column) : Except Markup.Error Strip := do
  let cells := column.title :: t.rows.map fun row => row[index]?.getD ""
  return ⟨column.align, ← cells.mapM fun cell => Markup.shown cell.toList⟩

def Table.lines (t : Table) : Except Markup.Error (List (List Char)) := do
  let strips ← t.columns.zipIdx.mapM fun (column, index) => t.strip index column
  return tableLines strips t.rows.length

end SuiteAtlas.Console
