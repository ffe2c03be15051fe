import SuiteAtlas.Source.Pattern
import SuiteAtlas.Text.Line

/-!
Logical lines of a function.

The runner counts a continued physical line together with the line that follows it as one logical
line, and numbers the logical lines of a function from its declaration on. `physicalLine?` gives
the last physical line of a logical line; `logicalLines` folds physical lines into logical ones,
which is the numbering that it follows below the first line of the declaration.
-/

namespace SuiteAtlas.Source

open Text (after? isBlank goesOn trim)

/-- Whether blanks, of which there is at least one, then a name and an opening parenthesis start a
text. A name may itself begin with blanks. -/
def declaresAfterKeyword (name : List Char) : List Char → Bool
  | [] => false
  | c :: rest =>
    isBlank c && (((after? name rest).bind openCall?).isSome || declaresAfterKeyword name rest)

def declares (name line : List Char) : Bool :=
  match after? functionWord (trim line) with
  | some rest => declaresAfterKeyword name rest
  | none => false

/-- The name of a function without the class in front of it. -/
def unqualified (name : List Char) : List Char :=
  Text.takeEndWhile (· != '.') name

def functionLine? (lines : List (List Char)) (name : List Char) : Option Nat :=
  lines.findIdx? (declares (unqualified name))

/-- The index, counted from `first`, of the line that ends the `n + 1`st logical line. -/
def endOfLogicalLine? (first n : Nat) : List (List Char) → Option Nat
  | [] => none
  | line :: more =>
    if goesOn line then endOfLogicalLine? (first + 1) n more
    else
      match n with
      | 0 => some first
      | n + 1 => endOfLogicalLine? (first + 1) n more

/-- The physical line on which the logical line `offset` of a function ends; line 0 is the line
that declares the function. -/
def physicalLine? (text name : List Char) (offset : Int) : Option Nat :=
  if offset < 0 then none
  else
    let lines := Text.lines text
    (functionLine? lines name).bind fun start =>
      match offset.toNat with
      | 0 => some start
      | n + 1 => endOfLogicalLine? (start + 1) n (lines.drop (start + 1))

/-- The logical lines that complete rows of physical lines make: every row ends with its first line
that is not continued. Lines at the end that are all continued make none. -/
def logicalLines : List (List Char) → List (List (List Char))
  | [] => []
  | line :: more =>
    if goesOn line then
      match logicalLines more with
      | [] => []
      | row :: rows => (line :: row) :: rows
    else [line] :: logicalLines more

end SuiteAtlas.Source
