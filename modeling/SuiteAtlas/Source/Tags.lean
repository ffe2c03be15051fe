import SuiteAtlas.Text.Blank

/-!
Tags of a test.

A comment lists tags between commas; a test without such a list, or with an empty one, carries the
default tag. The nesting of a test is one deeper for every colon in its list.
-/

namespace SuiteAtlas.Source

def defaultTag : String := "unit"

/-- The tags of a list: trimmed, without empty ones, each once in the order of first appearance. -/
def listedTags (payload : List Char) : List String :=
  let tags := ((payload.splitOn ',').map Text.trim).filter fun tag => !tag.isEmpty
  (tags.map String.ofList).eraseDups

/-- The tags that a payload names; without any they are the default tag alone. -/
def tagsOf (payload : Option (List Char)) : List String :=
  match payload.map listedTags with
  | some (tag :: tags) => tag :: tags
  | _ => [defaultTag]

/-- How deep the test with this payload lies; a test without colons lies below its file. -/
def tagDepth (payload : Option (List Char)) : Nat :=
  1 + (payload.getD []).count ':'

end SuiteAtlas.Source
