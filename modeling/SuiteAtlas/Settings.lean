import SuiteAtlas.Text.Shell

namespace SuiteAtlas

/-- Environment variables with their values. -/
abbrev Environment := List (String × String)

structure Settings where
  command : List String := ["make"]
  sourcesFolder : String := "Project/Sources/Classes"
  filePattern : String := "*Test.4dm"
  noise : List String :=
    ["/Applications/Xcode.app", "tool4d.APPL Cooperative process doesn't yield enough"]
  deriving DecidableEq, Repr

namespace Settings

def default : Settings := {}

def defaultCommand : String := "make"

/-- The settings under an environment. A command line that is given counts before the environment's,
and one without words means the default command. -/
def ofEnvironment (env : Environment) (runner : Option String) :
    Except Text.Shell.Error Settings := do
  let fromEnv := (env.lookup "FOURD_TEST_RUNNER").getD defaultCommand
  let line :=
    match runner with
    | some runner => if runner == "" then fromEnv else runner
    | none => fromEnv
  let words ← Text.Shell.split line
  return {
    command := if words.isEmpty then [defaultCommand] else words
    sourcesFolder := (env.lookup "FOURD_TEST_SOURCES").getD default.sourcesFolder
    filePattern := (env.lookup "FOURD_TEST_PATTERN").getD default.filePattern }

end Settings

end SuiteAtlas
