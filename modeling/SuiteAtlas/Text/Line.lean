import SuiteAtlas.Text.Blank

/-!
Lines of a text: how a text is cut into physical lines, and when a line goes on in the next one.

A line feed ends a line; one carriage return before it belongs to the line end. A line is
continued when, blanks at its end aside, it ends with an odd number of backslashes: the last of
them is the continuation mark, the pairs before it are escaped backslashes.
-/

namespace SuiteAtlas.Text

def dropCarriageReturn (line : List Char) : List Char :=
  if line.getLast? = some '\r' then line.dropLast else line

/-- The physical lines of a text; a text that ends with a line feed has an empty last line. -/
def lines (text : List Char) : List (List Char) :=
  (text.splitOn '\n').map dropCarriageReturn

/-- Whether a line ends with an unescaped continuation mark. -/
def goesOn (line : List Char) : Bool :=
  (takeEndWhile (· == '\\') (trimEnd line)).length % 2 == 1

def withoutMark (line : List Char) : List Char :=
  (trimEnd line).dropLast

/-- The characters that end a line of a message; here the separators of Unicode count, too. -/
def isLineBreak (c : Char) : Bool :=
  let n := c.toNat
  (0x0a ≤ n && n ≤ 0x0d) || (0x1c ≤ n && n ≤ 0x1e) || n == 0x85 || n == 0x2028 || n == 0x2029

/-- What stands before the first line break of a message. -/
def firstLine (text : List Char) : List Char :=
  text.takeWhile fun c => !isLineBreak c

/-- Every line end as a line feed: a carriage return counts as one, alone or before a line feed. -/
def unifyLineEnds : List Char → List Char
  | [] => []
  | '\r' :: '\n' :: rest => '\n' :: unifyLineEnds rest
  | c :: rest => (if c = '\r' then '\n' else c) :: unifyLineEnds rest

end SuiteAtlas.Text
