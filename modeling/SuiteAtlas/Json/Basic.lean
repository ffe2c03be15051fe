import SuiteAtlas.Keyed
import SuiteAtlas.Number.Shortest

/-!
JSON values.

An object is a list of fields in the order of their first appearance, with one field for each key.
Integers have any size and are kept apart from floating-point numbers, because the two are written
differently.
-/

namespace SuiteAtlas

open Number (Binary64)

inductive Json
  | null
  | bool (value : Bool)
  | int (value : Int)
  | float (value : Binary64)
  | string (value : String)
  | array (items : List Json)
  | object (fields : List (String × Json))
  deriving Inhabited

namespace Json

/-- The object that setting the given fields one after the other makes. -/
def ofFields (fields : List (String × Json)) : Json :=
  .object (Keyed.ofList fields)

def string? : Json → Option String
  | .string text => some text
  | _ => none

def int? : Json → Option Int
  | .int n => some n
  | _ => none

def items : Json → List Json
  | .array items => items
  | _ => []

def fields : Json → List (String × Json)
  | .object fields => fields
  | _ => []

def field? (value : Json) (key : String) : Option Json :=
  match value with
  | .object fields => fields.lookup key
  | _ => none

end Json

end SuiteAtlas
