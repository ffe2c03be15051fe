import SuiteAtlas.Files.Glob
import SuiteAtlas.Settings

namespace SuiteAtlas

def sourceSuffix : List Char := ".4dm".toList

/-- A source file has the suffix of class files, in upper or lower case. -/
def isClassFile (path : Path) : Bool :=
  path.suffix.toList.map Char.toLower == sourceSuffix

inductive SearchError
  | file (error : FileError)
  | pattern (error : Glob.Error)
  deriving DecidableEq, Repr

def SearchError.message : SearchError → String
  | .file error => error.message
  | .pattern error => error.message

/-- The files that may declare tests below a root, in ascending order. A root that is itself a
source file is the only candidate. -/
def testFiles (files : Files) (settings : Settings) (root : Path) :
    Except SearchError (List Path) := do
  if isClassFile root then
    return if ← (files.isFile root).mapError .file then [root] else []
  else
    let folder := root.join (Path.ofString settings.sourcesFolder)
    if ← (files.isFolder folder).mapError .file then
      let parts ← (Glob.parts settings.filePattern).mapError .pattern
      let found ← (files.glob folder parts).mapError .file
      return Path.sort (← (found.filterM files.isFile).mapError .file)
    else return []

end SuiteAtlas
