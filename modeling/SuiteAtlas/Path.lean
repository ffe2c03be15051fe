import SuiteAtlas.Text.Blank

/-!
Paths of files.

A path is a row of names behind an anchor, which is empty for a relative path. Empty parts and the
part `.` vanish when a path is read; the part `..` stays until the path is resolved, which removes
it together with the name before it.
-/

namespace SuiteAtlas

structure Path where
  anchor : String
  parts : List String
  deriving DecidableEq, Repr

namespace Path

/-- The anchor that a text starts with: exactly two slashes are an anchor of their own. -/
def anchorOf : List Char → String
  | '/' :: '/' :: '/' :: _ => "/"
  | '/' :: '/' :: _ => "//"
  | '/' :: _ => "/"
  | _ => ""

/-- The parts of a text between slashes that name something. -/
def partsOf (text : List Char) : List String :=
  ((text.splitOn '/').map String.ofList).filter fun part => part != "" && part != "."

def ofString (text : String) : Path :=
  ⟨anchorOf text.toList, partsOf text.toList⟩

def toString (path : Path) : String :=
  if path.anchor == "" && path.parts.isEmpty then "." else path.anchor ++ "/".intercalate path.parts

def isAbsolute (path : Path) : Bool :=
  path.anchor != ""

def name (path : Path) : String :=
  path.parts.getLast?.getD ""

/-- Where the suffix of a name starts: at the last dot, unless that is an end of the name. -/
def suffixStart (name : List Char) : Nat :=
  let tail := (name.reverse.takeWhile (· != '.')).length
  let start := name.length - tail - 1
  if tail < name.length && 0 < start && 0 < tail then start else name.length

def suffix (path : Path) : String :=
  let name := path.name.toList
  String.ofList (name.drop (suffixStart name))

def stem (path : Path) : String :=
  let name := path.name.toList
  String.ofList (name.take (suffixStart name))

def join (folder path : Path) : Path :=
  if path.isAbsolute then path else ⟨folder.anchor, folder.parts ++ path.parts⟩

def child (folder : Path) (name : String) : Path :=
  ⟨folder.anchor, folder.parts ++ [name]⟩

/-- Removes each part `..` together with the name before it. -/
def normalParts (parts : List String) : List String :=
  parts.foldl (fun done part => if part == ".." then done.dropLast else done ++ [part]) []

/-- The absolute path without parts `..` that a path means in the folder `current`. There is one
root, however an anchor writes it. -/
def resolve (current path : Path) : Path :=
  ⟨"/", normalParts (current.join path).parts⟩

/-- Whether a part holds the null character, which ends a name where files are looked up. -/
def hasNull (path : Path) : Bool :=
  path.parts.any fun part => part.toList.contains '\x00'

/-- The row of texts by which paths are ordered. -/
def sortKey (path : Path) : List String :=
  if path.isAbsolute then path.anchor :: path.parts else path.parts

def le (a b : Path) : Bool :=
  !decide (b.sortKey < a.sortKey)

def sort (paths : List Path) : List Path :=
  paths.mergeSort le

end Path

instance : ToString Path := ⟨Path.toString⟩

end SuiteAtlas
