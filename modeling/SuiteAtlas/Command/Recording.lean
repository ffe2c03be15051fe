import SuiteAtlas.Command.Action
import SuiteAtlas.Json.Reader

/-!
Surroundings as a recording.

A recording is a JSON object that tells what the program is to see: the files of the workspace, the
environment, what the runner leaves behind, and what arrives later. File names are relative to the
workspace, which an absolute name writes as the placeholder. Bytes are written as the text that they
encode, or as hexadecimal digits; a missing field means its default.
-/

namespace SuiteAtlas.Recording

/-- The name that stands for the folder of the workspace. -/
def placeholder : String := "<ws>"

def workspace : Path := ⟨"/", [placeholder]⟩

/-- A name in which the placeholder at the start stands for the workspace, as an absolute one. -/
def enter (name : String) : String :=
  if name.startsWith placeholder then "/" ++ name else name

/-- An absolute name of something in the workspace, with the placeholder again. -/
def leave (text : String) : String :=
  text.replace ("/" ++ placeholder) placeholder

def pathOf (name : String) : Path :=
  workspace.join (Path.ofString (enter name))

def text? (v : Json) (key : String) : Option String :=
  (v.field? key).bind Json.string?

def fieldsOf (v : Json) (key : String) : List (String × Json) :=
  ((v.field? key).getD .null).fields

def itemsOf (v : Json) (key : String) : List Json :=
  ((v.field? key).getD .null).items

def bytesOfHex : List Char → List UInt8
  | high :: low :: rest =>
    let value := (Json.hexValue? high).getD 0 * 16 + (Json.hexValue? low).getD 0
    UInt8.ofNat value :: bytesOfHex rest
  | _ => []

def bytesOf : Json → List UInt8
  | .string text => Text.Utf8.encode text.toList
  | v => bytesOfHex ((text? v "hex").getD "").toList

/-- What the fields of an object write: `null` is a folder, anything else the bytes of a file. -/
def entriesOf (fields : List (String × Json)) : List (Path × Entry) :=
  fields.map fun (name, content) =>
    (pathOf name, match content with
      | .null => .folder
      | content => .file (bytesOf content))

def addAll (files : Files) (entries : List (Path × Entry)) : Files :=
  entries.foldl (fun files (path, entry) => files.add path entry) files

def filesOf (v : Json) : Files :=
  addAll (Files.empty workspace) (entriesOf (fieldsOf v "files"))

def environmentOf (v : Json) : Environment :=
  (fieldsOf v "env").filterMap fun (name, value) => value.string?.map fun value => (name, value)

def executionOf (v : Json) : Execution :=
  { stdout := ((v.field? "stdout").map bytesOf).getD []
    stderr := ((v.field? "stderr").map bytesOf).getD []
    exitCode := ((v.field? "returncode").bind Json.int?).getD 0
    limit := (((v.field? "limit").bind Json.int?).map Int.toNat).getD (16 * 1024 * 1024)
    startError := (text? v "oserror").map fun reason => s!"[Errno 2] {reason}" }

/-- The changes that a list of pairs of a kind and a path writes. -/
def batchOf (changes : List Json) : Batch :=
  changes.filterMap fun change =>
    match change.items with
    | [.int kind, .string path] => some (kind, enter path)
    | _ => none

def arrivalOf (v : Json) : Arrival :=
  { written := entriesOf (fieldsOf v "write")
    deleted := (itemsOf v "delete").filterMap fun name => name.string?.map pathOf
    changes := batchOf (itemsOf v "changes") }

def surroundingsOf (v : Json) : Surroundings :=
  { files := filesOf v
    environment := environmentOf v
    execution := executionOf v
    arrivals := (itemsOf v "batches").map arrivalOf }

end SuiteAtlas.Recording
