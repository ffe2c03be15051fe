import SuiteAtlas.Text.Blank

/-!
Argument lists.

The arguments of a call stand between parentheses and are separated by semicolons. Brackets nest,
and neither brackets nor semicolons count inside a text literal, where a backslash takes the next
character with it. `argumentsAt` cuts a list at its top level; it does not look beyond the
closing parenthesis, and fails when another bracket closes the list or nothing does.
-/

namespace SuiteAtlas.Source

open Text (trim)

/-- A closed argument list: its arguments, of which there is at least one, and what follows it. -/
structure Closed where
  first : List Char
  others : List (List Char)
  rest : List Char
  deriving DecidableEq, Repr

namespace Closed

def arguments (closed : Closed) : List (List Char) :=
  closed.first :: closed.others

/-- Puts characters in front of the first argument. -/
def prepend (chars : List Char) (closed : Closed) : Closed :=
  { closed with first := chars ++ closed.first }

/-- Puts an empty argument in front. -/
def separate (closed : Closed) : Closed :=
  ⟨[], closed.first :: closed.others, closed.rest⟩

end Closed

def isOpener (c : Char) : Bool := c == '(' || c == '[' || c == '\x7b'
def isCloser (c : Char) : Bool := c == ')' || c == ']' || c == '\x7d'

/-- Splits the rest of a list, inside a literal or not, with `depth` brackets open. -/
def splitFrom (literal : Bool) (depth : Nat) : List Char → Option Closed
  | [] => none
  | '\\' :: c :: rest =>
    if literal then (splitFrom true depth rest).map (.prepend ['\\', c])
    else (splitFrom false depth (c :: rest)).map (.prepend ['\\'])
  | c :: rest =>
    if literal then (splitFrom (c != '"') depth rest).map (.prepend [c])
    else if c == '"' then (splitFrom true depth rest).map (.prepend [c])
    else if isOpener c then (splitFrom false (depth + 1) rest).map (.prepend [c])
    else if isCloser c then
      match depth with
      | 0 => if c == ')' then some ⟨[], [], rest⟩ else none
      | depth + 1 => (splitFrom false depth rest).map (.prepend [c])
    else if c == ';' && depth == 0 then (splitFrom false depth rest).map .separate
    else (splitFrom false depth rest).map (.prepend [c])
  termination_by text => text.length

/-- The list whose opening parenthesis stands before a text. -/
def closeList (text : List Char) : Option Closed :=
  splitFrom false 0 text

/-- Splits the argument list whose opening parenthesis is at the index `opening` of a text: the
arguments, and the index just past the closing parenthesis. An index before the text counts from
its end, and reading then goes on from the end of the text to its start. -/
def argumentsAt (text : List Char) (opening : Int) : Option (List (List Char) × Int) :=
  let start := opening + 1
  if start < -(text.length : Int) then none
  else
    let body :=
      if start < 0 then text.drop (text.length - (-start).toNat) ++ text
      else text.drop start.toNat
    (closeList body).map fun closed =>
      (closed.arguments, start + (body.length - closed.rest.length : Nat))

/-- The body of a text literal after its opening mark, if the mark that closes it comes last. -/
def literalBody? : List Char → Option (List Char)
  | [] => none
  | '\\' :: c :: rest => (literalBody? rest).map (c :: ·)
  | '"' :: rest => if rest.isEmpty then some [] else none
  | c :: rest => (literalBody? rest).map (c :: ·)

/-- The text that an argument writes when it is one text literal. -/
def textLiteral? (argument : List Char) : Option (List Char) :=
  match trim argument with
  | '"' :: rest => literalBody? rest
  | _ => none

/-- The last text literal among arguments, and the arguments without it. -/
def takeLastLiteral? : List (List Char) → Option (List Char × List (List Char))
  | [] => none
  | argument :: rest =>
    match takeLastLiteral? rest with
    | some (literal, others) => some (literal, argument :: others)
    | none => (textLiteral? argument).map fun literal => (literal, rest)

end SuiteAtlas.Source
