import SuiteAtlas.Keyed
import SuiteAtlas.Path
import SuiteAtlas.Text.Line
import SuiteAtlas.Text.Printable
import SuiteAtlas.Text.Utf8

/-!
A tree of files.

Files are kept by their absolute names, so that looking one up twice without a write in between
gives the same answer. A path may be too long as a whole. Otherwise a look-up walks its parts one
by one: a part `..` needs the folder before it, and a name that is too long for a folder is an error
once its folder is reached. No entry has a name with a null character, and such a path cannot be
resolved or read.
-/

namespace SuiteAtlas

inductive Entry
  | folder
  | file (content : List UInt8)
  deriving DecidableEq, Repr

/-- The files below `/`, and the folder from which relative paths are seen. -/
structure Files where
  current : Path
  entries : List (List String × Entry)
  deriving Repr

inductive FileError
  | nameTooLong (path : Path)
  | nullInName
  deriving DecidableEq, Repr

def FileError.message : FileError → String
  | .nameTooLong path => s!"[Errno 36] File name too long: {Text.quoted path.toString}"
  | .nullInName => "embedded null byte"

namespace Files

def nameLimit : Nat := 255
def pathLimit : Nat := 4095

/-- The folders above a name, from the outermost one on. -/
def foldersAbove (name : List String) : List (List String) :=
  (List.range name.length).map fun depth => name.take depth

/-- Makes every folder above a name that is not there yet. -/
def withFolders (entries : List (List String × Entry)) (name : List String) :
    List (List String × Entry) :=
  (foldersAbove name).foldl
    (fun entries folder => if (entries.lookup folder).isSome then entries
      else Keyed.put entries folder .folder) entries

def add (files : Files) (path : Path) (entry : Entry) : Files :=
  let name := (Path.resolve files.current path).parts
  { files with entries := Keyed.put (withFolders files.entries name) name entry }

def write (files : Files) (path : Path) (content : List UInt8) : Files :=
  files.add path (.file content)

def makeFolder (files : Files) (path : Path) : Files :=
  files.add path .folder

def delete (files : Files) (path : Path) : Files :=
  let name := (Path.resolve files.current path).parts
  { files with entries := files.entries.filter fun entry => !name.isPrefixOf entry.1 }

/-- No file at all but the folder `current` and those above it. -/
def empty (current : Path) : Files :=
  ({ current, entries := [([], .folder)] } : Files).makeFolder current

/-- Walks from the absolute name `place` along the parts of `path`: the entry there, if any. -/
def walk (files : Files) (path : Path) (place : List String) :
    List String → Except FileError (Option (List String × Entry))
  | [] => .ok ((files.entries.lookup place).map fun entry => (place, entry))
  | part :: rest =>
    match files.entries.lookup place with
    | some .folder =>
      if part == ".." then walk files path place.dropLast rest
      else if part.utf8ByteSize > nameLimit then .error (.nameTooLong path)
      else walk files path (place ++ [part]) rest
    | _ => .ok none

/-- The entry that a path names, with its absolute name. -/
def find? (files : Files) (path : Path) : Except FileError (Option (List String × Entry)) :=
  if path.hasNull then .ok none
  else if path.toString.utf8ByteSize > pathLimit then .error (.nameTooLong path)
  else walk files path [] (files.current.join path).parts

def resolve (files : Files) (path : Path) : Except FileError Path :=
  if path.hasNull then .error .nullInName else .ok (Path.resolve files.current path)

def isFile (files : Files) (path : Path) : Except FileError Bool := do
  match ← files.find? path with
  | some (_, .file _) => return true
  | _ => return false

def isFolder (files : Files) (path : Path) : Except FileError Bool := do
  match ← files.find? path with
  | some (_, .folder) => return true
  | _ => return false

def isThere (files : Files) (path : Path) : Except FileError Bool := do
  return (← files.find? path).isSome

/-- The bytes of a file, or nothing if there is no file to read. -/
def content? (files : Files) (path : Path) : Option (List UInt8) :=
  match files.find? path with
  | .ok (some (_, .file content)) => some content
  | _ => none

def textOf (content : List UInt8) : List Char :=
  Text.unifyLineEnds (Text.Utf8.decode content)

/-- The text of a file: malformed bytes are replaced, and every line end is a line feed. -/
def text? (files : Files) (path : Path) : Option (List Char) :=
  (files.content? path).map textOf

def namesIn (files : Files) (path : Path) : Except FileError (List String) := do
  match ← files.find? path with
  | some (folder, .folder) =>
    return files.entries.filterMap fun (name, _) =>
      if name.dropLast == folder then name.getLast? else none
  | _ => return []

end Files

end SuiteAtlas
