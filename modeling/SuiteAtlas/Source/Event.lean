import SuiteAtlas.Source.Arguments
import SuiteAtlas.Source.Pattern
import SuiteAtlas.Source.Range
import SuiteAtlas.Source.Tags
import SuiteAtlas.Text.Line

/-!
What a test class declares, in the order of its text.

`scan` reads the lines of a class one after the other. A line that declares a test gives a heading,
whose tags stand in the line before it. Other lines outside of methods that are no tests, comments
aside, give their assertions; an assertion may go on over continued lines, and the reading goes on
where it ends. A line that an assertion goes through is read for nothing else.
-/

namespace SuiteAtlas.Source

/-- The declaration of a test. -/
structure Heading where
  range : Range
  name : String
  tagDepth : Nat
  tags : List String
  deriving DecidableEq, Repr

structure Assertion where
  range : Range
  actual : String
  operator : String
  expected : String
  should : String
  deriving DecidableEq, Repr

inductive Event
  | heading (h : Heading)
  | assertion (a : Assertion)
  deriving DecidableEq, Repr

namespace Event

def range : Event → Range
  | .heading h => h.range
  | .assertion a => a.range

def heading? : Event → Option Heading
  | .heading h => some h
  | .assertion _ => none

def assertion? : Event → Option Assertion
  | .heading _ => none
  | .assertion a => some a

end Event

/-- What the arguments of an assertion say: the first one, the harness, is left out, the last text
literal is the message, and of the others the first two count. -/
structure Expectation where
  actual : List Char
  expected : List Char
  should : List Char
  deriving DecidableEq, Repr

def Expectation.ofArguments (arguments : List (List Char)) : Expectation :=
  let rest := (arguments.drop 1).map Text.trim
  let (should, rest) := (takeLastLiteral? rest).getD ([], rest)
  ⟨rest[0]?.getD [], rest[1]?.getD [], should⟩

/-- The pieces of the statement that starts with `line`: each continued line without its mark, and
the line after the last of them. -/
def statementPieces (line : List Char) : List (List Char) → List (List Char)
  | [] => if Text.goesOn line then [Text.withoutMark line] else [line]
  | next :: more =>
    if Text.goesOn line then Text.withoutMark line :: statementPieces next more else [line]

/-- The piece, counted from the first one, and the place in it that come after `length` characters
of a statement. -/
def locate (length : Nat) : List (List Char) → Nat × Nat
  | [] => (0, length)
  | [_] => (0, length)
  | piece :: next :: more =>
    if length ≤ piece.length then (0, length)
    else
      let (line, column) := locate (length - piece.length) (next :: more)
      (line + 1, column)

/-- A place in the lines of a text: the line there, and the lines after it. -/
structure Cursor where
  line : Nat
  column : Nat
  current : List Char
  more : List (List Char)
  deriving DecidableEq, Repr

namespace Cursor

def ofLine (line : Nat) (current : List Char) (more : List (List Char)) : Cursor :=
  ⟨line, 0, current, more⟩

def rest (c : Cursor) : List Char :=
  c.current.drop c.column

def before (c : Cursor) : Option Char :=
  if c.column = 0 then none else c.current[c.column - 1]?

/-- The place `lines` lines below, at a column of its own. -/
def down (c : Cursor) (lines column : Nat) : Cursor :=
  match lines with
  | 0 => { c with column := column }
  | lines + 1 =>
    ⟨c.line + lines + 1, column, c.more[lines]?.getD [], c.more.drop (lines + 1)⟩

/-- The next assertion of the line whose argument list begins at the place or later. -/
def nextCall? (c : Cursor) : Option Call :=
  findCall? c.before c.rest

/-- The assertion that a call at the place makes, and the place just past it. -/
def readCall? (c : Cursor) (call : Call) : Option (Assertion × Cursor) :=
  let startColumn := c.column + call.offset
  let pieces := statementPieces (c.rest.drop call.offset) c.more
  let statement := pieces.flatten
  (closeList (statement.drop call.head)).map fun closed =>
    let (lines, column) := locate (statement.length - closed.rest.length) pieces
    let stop := c.down lines (if lines = 0 then startColumn + column else column)
    let expectation := Expectation.ofArguments closed.arguments
    let assertion : Assertion :=
      { range := .ofPoints c.line startColumn stop.line stop.column
        actual := String.ofList expectation.actual
        operator := String.ofList call.operator
        expected := String.ofList expectation.expected
        should := String.ofList expectation.should }
    (assertion, stop)

/-- The place behind the opening parenthesis of a call. -/
def skipCall (c : Cursor) (call : Call) : Cursor :=
  { c with column := c.column + call.offset + call.head }

/-- The assertions that begin on the line from the place on, or on a line where one of them ends;
and where the last of them ends. Every step moves the place forward, so as many steps as there are
characters are enough. -/
def assertions (c : Cursor) : Nat → List Assertion × Cursor
  | 0 => ([], c)
  | fuel + 1 =>
    match c.nextCall? with
    | none => ([], c)
    | some call =>
      match c.readCall? call with
      | none => (c.skipCall call).assertions fuel
      | some (assertion, next) =>
        let (rest, last) := next.assertions fuel
        (assertion :: rest, last)

/-- The number of characters and line ends from the place on. -/
def size (c : Cursor) : Nat :=
  c.rest.length + c.more.length + c.more.flatten.length

end Cursor

/-- The heading that a line declares below the line `previous`. -/
def headingEvent? (number : Nat) (previous line : List Char) : Option Heading :=
  (heading? line).map fun name =>
    let payload := tagPayload? previous
    { range := .ofPoints number 0 number line.length
      name := String.ofList name
      tagDepth := tagDepth payload
      tags := tagsOf payload }

/-- The events of the lines from `number` on, below the line `previous`; `other` tells whether they
belong to a method that is no test. Every step takes a line. -/
def scanLines (other : Bool) (number : Nat) (previous : List Char) :
    Nat → List (List Char) → List Event
  | 0, _ => []
  | _ + 1, [] => []
  | fuel + 1, line :: more =>
    match headingEvent? number previous line with
    | some heading => .heading heading :: scanLines false (number + 1) line fuel more
    | none =>
      if isMethod line then scanLines true (number + 1) line fuel more
      else if other || isComment line then scanLines other (number + 1) line fuel more
      else
        let start := Cursor.ofLine number line more
        let (assertions, last) := start.assertions (start.size + 1)
        assertions.map .assertion ++ scanLines other (last.line + 1) last.current fuel last.more

/-- The headings and assertions of a text, in its order. -/
def scan (text : List Char) : List Event :=
  let lines := Text.lines text
  scanLines false 0 [] lines.length lines

def headings (events : List Event) : List Heading :=
  events.filterMap Event.heading?

def assertions (events : List Event) : List Assertion :=
  events.filterMap Event.assertion?

def declaresTest (events : List Event) : Bool :=
  !(headings events).isEmpty

end SuiteAtlas.Source
