import SuiteAtlas.Json.Printer
import SuiteAtlas.Report.Shape

/-!
Finding the report in the output of the runner.

The report is the text from the first opening to the last closing brace, so it may stand in the
middle of other output that holds no braces. `echo` is how a report is written so that it can be
found again.
-/

namespace SuiteAtlas.Report

inductive Error
  | noObject
  | badJson (cause : Json.Cause) (offset line column : Nat)
  | badShape (faults : Nat)
  deriving DecidableEq, Repr

def Error.message : Error → String
  | .noObject => "no JSON object found in runner output"
  | .badJson cause offset line column =>
    s!"invalid JSON in runner output: {(Json.ReadError.grammar cause offset line column).message}"
  | .badShape faults => s!"unexpected report shape: {faults} error(s)"

/-- Why an output cannot be read, or its report not be written: there is no report, a number is too
long, or values are nested too deep. -/
inductive Failure
  | unusable (error : Error)
  | tooManyDigits (count : Nat)
  | tooDeep (container : Json.Container)
  | unwritable (error : Json.WriteError)
  deriving DecidableEq, Repr

def Failure.message : Failure → String
  | .unusable error => error.message
  | .tooManyDigits count => (Json.ReadError.tooManyDigits count).message
  | .tooDeep container => (Json.ReadError.tooDeep container).message
  | .unwritable error => error.message

def openBrace : Char := '\x7b'
def closeBrace : Char := '\x7d'

/-- The part of a text from the first opening to the last closing brace. -/
def braced? (text : List Char) : Option (List Char) :=
  let fromOpen := text.dropWhile (· != openBrace)
  let part := Text.dropEndWhile (· != closeBrace) fromOpen
  if part.isEmpty then none else some part

/-- The value in an output, and the report that it describes. -/
def load (nesting : Nat) (text : List Char) : Except Failure (Json × Report) :=
  match braced? text with
  | none => .error (.unusable .noObject)
  | some part =>
    match Json.read nesting part with
    | .error (.grammar cause offset line column) =>
      .error (.unusable (.badJson cause offset line column))
    | .error (.tooManyDigits count) => .error (.tooManyDigits count)
    | .error (.tooDeep container) => .error (.tooDeep container)
    | .ok value =>
      match ofJson value with
      | .error faults => .error (.unusable (.badShape faults))
      | .ok report => .ok (value, report)

def extract (nesting : Nat) (text : String) : Except Failure Report :=
  (load nesting text.toList).map Prod.snd

def header : String := "=== Test Results (JSON) ==="

def framed (block : String) : String :=
  s!"\n{header}\n{block}\n"

/-- A report as it is written. -/
def echo (value : Json) : String :=
  framed (String.ofList (value.block 0))

/-- Writes a report, if it can be written. -/
def echo? (nesting : Nat) (value : Json) : Except Failure String :=
  match value.toBlock nesting with
  | .error error => .error (.unwritable error)
  | .ok block => .ok (framed block)

end SuiteAtlas.Report
