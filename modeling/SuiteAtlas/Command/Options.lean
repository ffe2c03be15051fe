import SuiteAtlas.Text.Blank

/-!
Options on a command line.

A word that starts with a dash, and is longer than it, holds options: one by its long name, with a
value behind an equals sign or in the next word, or a row of short ones, of which the last may have
its value behind it or in the next word. Two dashes end the options. Every other word is positional.
-/

namespace SuiteAtlas

/-- An option with its names, without dashes. -/
structure OptionKind where
  long : String
  short : Option Char := none
  takesValue : Bool := true
  deriving DecidableEq, Repr

inductive UsageError
  | unknownOption (word : String)
  | missingValue (option : OptionKind)
  | surplusValue (option : OptionKind)
  | noCommand
  | unknownCommand (name : String)
  | missingArgument
  | surplusArgument
  | notAnInteger (word : String)
  | notAPath (word : String)
  deriving DecidableEq, Repr

def UsageError.message : UsageError → String
  | .unknownOption word => s!"No such option: {word}"
  | .missingValue option => s!"Option '--{option.long}' requires an argument."
  | .surplusValue option => s!"Option '--{option.long}' does not take a value."
  | .noCommand => "Missing command."
  | .unknownCommand name => s!"No such command '{name}'."
  | .missingArgument => "Missing argument."
  | .surplusArgument => "Got unexpected extra argument."
  | .notAnInteger word => s!"'{word}' is not a valid integer."
  | .notAPath word => s!"'{word}' is not a valid path."

/-- What a command line says: the options that are given, in order, and the positional words. -/
structure Given where
  options : List (OptionKind × String) := []
  words : List String := []
  deriving DecidableEq, Repr

namespace Given

def withOptions (g : Given) (options : List (OptionKind × String)) : Given :=
  { g with options := options ++ g.options }

def withWord (g : Given) (word : String) : Given :=
  { g with words := word :: g.words }

def values (g : Given) (kind : OptionKind) : List String :=
  (g.options.filter fun option => option.1 == kind).map Prod.snd

/-- The value of an option that counts: the last one. -/
def value? (g : Given) (kind : OptionKind) : Option String :=
  (g.values kind).getLast?

end Given

/-- The options in one word, and the option whose value is the next word, if there is one. -/
abbrev WordOptions := List (OptionKind × String) × Option OptionKind

/-- The short options in a row of letters. -/
def readShort (kinds : List OptionKind) (word : String) : List Char → Except UsageError WordOptions
  | [] => .ok ([], none)
  | letter :: rest =>
    match kinds.find? fun kind => kind.short == some letter with
    | none => .error (.unknownOption word)
    | some kind =>
      if kind.takesValue then
        .ok (if rest.isEmpty then ([], some kind) else ([(kind, String.ofList rest)], none))
      else (readShort kinds word rest).map fun (options, open?) => ((kind, "") :: options, open?)

/-- The option of a long name, with the value behind the equals sign if there is one. -/
def readLong (kind : OptionKind) (value : Option String) : Except UsageError WordOptions :=
  match kind.takesValue, value with
  | true, some value => .ok ([(kind, value)], none)
  | true, none => .ok ([], some kind)
  | false, some _ => .error (.surplusValue kind)
  | false, none => .ok ([(kind, "")], none)

def readOptions (kinds : List OptionKind) (word : String) : Except UsageError WordOptions :=
  match word.toList with
  | '-' :: '-' :: rest =>
    let name := String.ofList (rest.takeWhile (· != '='))
    let value := (rest.dropWhile (· != '=')).tail?.map String.ofList
    match kinds.find? fun kind => kind.long == name with
    | some kind => readLong kind value
    | none => .error (.unknownOption word)
  | letters => readShort kinds word (letters.drop 1)

def holdsOptions (word : String) : Bool :=
  word.startsWith "-" && word != "-"

/-- Reads the words of a command line, where the first word may be the value of an open option.
With `mixed`, options may follow positional words; otherwise the first of these ends the options. -/
def readWords (kinds : List OptionKind) (mixed : Bool) (open? : Option OptionKind) :
    List String → Except UsageError Given
  | [] =>
    match open? with
    | some kind => .error (.missingValue kind)
    | none => .ok {}
  | word :: rest =>
    match open? with
    | some kind => (readWords kinds mixed none rest).map (·.withOptions [(kind, word)])
    | none =>
      if word = "--" then .ok { words := rest }
      else if holdsOptions word then do
        let (options, open?) ← readOptions kinds word
        return (← readWords kinds mixed open? rest).withOptions options
      else if mixed then (readWords kinds mixed none rest).map (·.withWord word)
      else .ok { words := word :: rest }

end SuiteAtlas
