import SuiteAtlas.Console.Width
import SuiteAtlas.Text.Line

/-!
Laying text out in lines.

Text is shown line by line. A tab goes to the next tab stop. In a column of a given width a line is
broken before words that do not fit any more; a line that is still too long ends with an ellipsis,
a shorter one is filled with spaces.
-/

namespace SuiteAtlas.Console

open Text (isBlank trimEnd takeEndWhile)

def tabSize : Nat := 8

/-- The cells from a place to the next tab stop, if the place is none itself. -/
def toTabStop (place : Nat) : Nat :=
  (tabSize - place % tabSize) % tabSize

/-- A line with spaces for its tabs, where `place` cells stand before it. A tab is a space, followed
by more of them up to a tab stop; a joiner in front of it takes that space into its glyph. -/
def expandTabsFrom (place : Nat) : List (List Char) → List Char
  | [] => []
  | [part] => part
  | part :: rest =>
    let part := part ++ [' ']
    let stop := place + width part
    part ++ List.replicate (toTabStop stop) ' ' ++ expandTabsFrom (stop + toTabStop stop) rest

def expandTabs (line : List Char) : List Char :=
  expandTabsFrom 0 (line.splitOn '\t')

/-- The lines that a text is shown in, without a bound on their width. -/
def shownLines (text : List Char) : List (List Char) :=
  (text.splitOn '\n').map expandTabs

/-- Puts a character in front of cut words: it starts a word of its own when blanks end there. -/
def joinWord (c : Char) (words : List (List Char)) : List (List Char) :=
  match words with
  | [] => [[c]]
  | word :: rest =>
    match word.head? with
    | some next => if isBlank c && !isBlank next then [c] :: word :: rest else (c :: word) :: rest
    | none => [c] :: rest

/-- A line cut after each run of blanks. -/
def cutAfterBlanks (line : List Char) : List (List Char) :=
  line.foldr joinWord []

/-- The words of a line, each with the blanks after it; the first one also has those before it. -/
def words (line : List Char) : List (List Char) :=
  match cutAfterBlanks line with
  | first :: second :: rest =>
    if first.all isBlank then (first ++ second) :: rest else first :: second :: rest
  | words => words

/-- Breaks a row of words into lines, where `used` cells of the line `line` are taken. A word that
does not fit starts a line of its own, unless it is the first one of all. -/
def breakWords (room used : Nat) (line : List Char) : List (List Char) → List (List Char)
  | [] => [line]
  | word :: rest =>
    if used + width (trimEnd word) ≤ room then
      breakWords room (used + width word) (line ++ word) rest
    else if line.isEmpty then breakWords room (width word) word rest
    else line :: breakWords room (width word) word rest

/-- Removes blanks at the end of a line that has more characters than there is room for. -/
def trimExcess (room : Nat) (line : List Char) : List Char :=
  let blanks := (takeEndWhile isBlank line).length
  line.take (line.length - min blanks (line.length - room))

/-- A line that is too wide is cut, and ends with an ellipsis. -/
def truncate (room : Nat) (line : List Char) : List Char :=
  if width line ≤ room then line else crop (room - 1) line ++ ['…']

inductive Align
  | left
  | right
  deriving DecidableEq, Repr

/-- A line in a column. A joiner at its end takes the first space behind it into its glyph; the
second filling makes up for that. -/
def Align.fit (align : Align) (room : Nat) (line : List Char) : List Char :=
  match align with
  | .left => padEnd room (padEnd room (truncate room line))
  | .right => padEnd room (padStart room (truncate room (trimEnd line)))

/-- The lines of a text in a column of `room` cells. -/
def Align.lines (align : Align) (room : Nat) (text : List Char) : List (List Char) :=
  (shownLines text).flatMap fun line =>
    (breakWords room 0 [] (words line)).map fun line => align.fit room (trimExcess room line)

end SuiteAtlas.Console
