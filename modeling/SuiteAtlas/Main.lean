import SuiteAtlas.Command.Perform
import SuiteAtlas.Command.Recording

open SuiteAtlas

def main (arguments : List String) : IO UInt32 := do
  let line ← (← IO.getStdin).getLine
  let recording := (Json.read line.length line.toList).toOption.getD .null
  match Command.performArguments (Recording.surroundingsOf recording) arguments with
  | .error error =>
    (← IO.getStderr).putStrLn error.message
    return 2
  | .ok outcome =>
    (← IO.getStdout).putStr outcome.output
    if let some failure := outcome.failure then (← IO.getStderr).putStrLn failure.message
    return outcome.code.toUInt32
