import SuiteAtlas.Source.Event

/-!
The outline of a test class: its headings with their assertions, nested as their tags say.

The events of a class are read one by one, with a stack of the headings that are still open. A
heading of tag depth `d` closes open ones until at most `d - 1` are left and then lies below the
innermost of these, so it never lies more than one level below the heading before it. An assertion
belongs to the innermost open heading; without one it is kept apart. A heading whose name was used
before is open like any other, but when it is closed it is left out with all that lies below it.
-/

namespace SuiteAtlas

open Source (Assertion Event Heading)

/-- A heading with its assertions and the sections below it. -/
inductive Section
  | mk (heading : Heading) (assertions : List Assertion) (nested : List Section)

structure Outline where
  loose : List Assertion
  sections : List Section

namespace Section

def heading : Section → Heading
  | .mk heading _ _ => heading

def assertions : Section → List Assertion
  | .mk _ assertions _ => assertions

def nested : Section → List Section
  | .mk _ _ nested => nested

end Section

namespace Outline

/-- A heading that is still open, with what was read below it so far. -/
structure Open where
  heading : Heading
  repeated : Bool
  assertions : List Assertion := []
  nested : List Section := []

namespace Open

/-- The section that closing a heading gives, or none if its name was used before. -/
def close (o : Open) : List Section :=
  if o.repeated then [] else [.mk o.heading o.assertions o.nested]

def addAssertion (o : Open) (a : Assertion) : Open :=
  { o with assertions := o.assertions ++ [a] }

def addSections (o : Open) (sections : List Section) : Open :=
  { o with nested := o.nested ++ sections }

end Open

/-- How far events were read: the outline of what is closed, the open headings from the innermost
one on, and the names that were used. -/
structure Reading where
  loose : List Assertion := []
  sections : List Section := []
  stack : List Open := []
  names : List String := []

namespace Reading

/-- Closes open headings until at most `left` of them are open. -/
def closeTo (left : Nat) (sections : List Section) (stack : List Open) :
    List Section × List Open :=
  match stack with
  | [] => (sections, [])
  | [o] => if left = 0 then (sections ++ o.close, []) else (sections, [o])
  | o :: parent :: rest =>
    if left < rest.length + 2 then closeTo left sections (parent.addSections o.close :: rest)
    else (sections, o :: parent :: rest)
  termination_by stack.length

def step (r : Reading) : Event → Reading
  | .heading h =>
    let (sections, stack) := closeTo (h.tagDepth - 1) r.sections r.stack
    { r with
      sections
      stack := { heading := h, repeated := r.names.contains h.name } :: stack
      names := h.name :: r.names }
  | .assertion a =>
    match r.stack with
    | [] => { r with loose := r.loose ++ [a] }
    | o :: rest => { r with stack := o.addAssertion a :: rest }

/-- The outline when no more events come. -/
def finish (r : Reading) : Outline :=
  ⟨r.loose, (closeTo 0 r.sections r.stack).1⟩

end Reading

def ofEvents (events : List Event) : Outline :=
  (events.foldl Reading.step {}).finish

end Outline

end SuiteAtlas
