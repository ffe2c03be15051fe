import SuiteAtlas.Report.Basic
import SuiteAtlas.Report.Scalar

/-!
The shape of a report.

Reading a report counts what is wrong with it: every field with a bad value, every required field
that is missing, every item that is no object, and every list that is none, whose contents are then
not looked at. A report without faults has been read.
-/

namespace SuiteAtlas

/-- What was read, or the number of faults. -/
abbrev Shape (α : Type) := Except Nat α

namespace Shape

/-- Applies a function to an argument; the faults of both add up. -/
def app {α β : Type} (f : Shape (α → β)) (x : Shape α) : Shape β :=
  match f, x with
  | .ok f, .ok x => .ok (f x)
  | .error m, .error n => .error (m + n)
  | .error m, .ok _ => .error m
  | .ok _, .error n => .error n

def ofOption {α : Type} (value : Option α) : Shape α :=
  match value with
  | some value => .ok value
  | none => .error 1

/-- Reads every item of a list; the faults of all items add up. -/
def all {α : Type} (read : Json → Shape α) : List Json → Shape (List α)
  | [] => .ok []
  | item :: rest => app (app (.ok fun x xs => x :: xs) (read item)) (all read rest)

end Shape

namespace Report

open Number (Binary64)

/-- The value of a field under the first of its names that an object has. -/
def named? (fields : List (String × Json)) (names : List String) : Option Json :=
  names.findSome? fun name => fields.lookup name

def required {α : Type} (read : Json → Option α) (fields : List (String × Json))
    (names : List String) : Shape α :=
  Shape.ofOption ((named? fields names).bind read)

def optional {α : Type} (default : α) (read : Json → Option α) (fields : List (String × Json))
    (names : List String) : Shape α :=
  match named? fields names with
  | some value => Shape.ofOption (read value)
  | none => .ok default

def nullable {α : Type} (read : Json → Option α) : Json → Option (Option α)
  | .null => some none
  | value => (read value).map some

def list {α : Type} (read : Json → Shape α) (fields : List (String × Json))
    (names : List String) : Shape (List α) :=
  match named? fields names with
  | some (.array items) => Shape.all read items
  | some _ => .error 1
  | none => .ok []

def object {α : Type} (read : List (String × Json) → Shape α) : Json → Shape α
  | .object fields => read fields
  | _ => .error 1

def assertion (fields : List (String × Json)) : Shape ReportedAssertion :=
  let shape := .ok ReportedAssertion.mk
  let shape := Shape.app shape (optional "" text? fields ["message"])
  let shape := Shape.app shape (optional .null some fields ["expected"])
  let shape := Shape.app shape (optional .null some fields ["actual"])
  let shape := Shape.app shape (optional false flag? fields ["passed"])
  let shape := Shape.app shape (optional none (nullable int?) fields ["line"])
  let shape :=
    Shape.app shape (optional none (nullable text?) fields ["functionName", "function_name"])
  Shape.app shape (optional none (nullable number?) fields ["duration"])

def test (fields : List (String × Json)) : Shape ReportedTest :=
  let shape := .ok ReportedTest.mk
  let shape := Shape.app shape (required text? fields ["suite"])
  let shape := Shape.app shape (required text? fields ["name"])
  let shape := Shape.app shape (optional false flag? fields ["passed"])
  let shape := Shape.app shape (optional none (nullable number?) fields ["duration"])
  let shape :=
    Shape.app shape (optional none (nullable int?) fields ["assertionCount", "assertion_count"])
  Shape.app shape (list (object assertion) fields ["assertions"])

def failure (fields : List (String × Json)) : Shape ReportedReason :=
  let shape := .ok ReportedReason.mk
  let shape := Shape.app shape (optional "" text? fields ["suite"])
  let shape := Shape.app shape (optional "" text? fields ["test"])
  Shape.app shape (optional "" text? fields ["reason"])

def report (fields : List (String × Json)) : Shape Report :=
  let shape := .ok Report.mk
  let shape := Shape.app shape (list (object test) fields ["testResults", "test_results"])
  Shape.app shape (list (object failure) fields ["failures"])

/-- The report that a value describes, or the number of faults in it. -/
def ofJson (value : Json) : Shape Report :=
  object report value

end Report

end SuiteAtlas
