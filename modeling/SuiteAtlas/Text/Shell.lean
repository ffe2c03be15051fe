/-!
Command lines as a shell writes them.

`Shell.split` cuts a command line into words: blanks separate words, double marks keep blanks and
let a backslash escape only themselves and the backslash, single marks keep everything, and
outside marks a backslash takes the next character as it is. `Shell.join` writes words so that a
shell reads the same words back.
-/

namespace SuiteAtlas.Text.Shell

inductive Error
  | openQuotation
  | openEscape
  deriving DecidableEq, Repr

def Error.message : Error → String
  | .openQuotation => "No closing quotation"
  | .openEscape => "No escaped character"

def singleMark : Char := '\x27'

def isSeparator (c : Char) : Bool :=
  c == ' ' || c == '\t' || c == '\r' || c == '\n'

/-- Where a character stands: between words, in a word, or inside marks. -/
inductive Place
  | between
  | word
  | single
  | double
  deriving DecidableEq, Repr

/-- The words of the rest of a line, given the place and the characters of the current word in
reverse order. -/
def splitFrom (place : Place) (current : List Char) : List Char → Except Error (List (List Char))
  | [] =>
    match place with
    | .between => .ok []
    | .word => .ok [current.reverse]
    | .single | .double => .error .openQuotation
  | '\\' :: c :: rest =>
    match place with
    | .between | .word => splitFrom .word (c :: current) rest
    | .single => splitFrom .single ('\\' :: current) (c :: rest)
    | .double =>
      if c == '\\' || c == '"' then splitFrom .double (c :: current) rest
      else splitFrom .double (c :: '\\' :: current) rest
  | c :: rest =>
    match place with
    | .single =>
      if c == singleMark then splitFrom .word current rest
      else splitFrom .single (c :: current) rest
    | .double =>
      if c == '"' then splitFrom .word current rest
      else if c == '\\' then .error .openEscape
      else splitFrom .double (c :: current) rest
    | place =>
      if isSeparator c then
        match place with
        | .between => splitFrom .between [] rest
        | _ => (splitFrom .between [] rest).map (current.reverse :: ·)
      else if c == '"' then splitFrom .double current rest
      else if c == singleMark then splitFrom .single current rest
      else if c == '\\' then .error .openEscape
      else splitFrom .word (c :: current) rest
  termination_by text => text.length

def split (line : String) : Except Error (List String) :=
  (splitFrom .between [] line.toList).map (·.map String.ofList)

def isPlain (c : Char) : Bool :=
  ('a' ≤ c && c ≤ 'z') || ('A' ≤ c && c ≤ 'Z') || ('0' ≤ c && c ≤ '9') ||
    "_@%+=:,./-".toList.contains c

/-- A word as a shell reads it: bare if it is plain, else between single marks. -/
def quote (word : List Char) : List Char :=
  if !word.isEmpty && word.all isPlain then word
  else
    let body := word.flatMap fun c =>
      if c == singleMark then [singleMark, '"', singleMark, '"', singleMark] else [c]
    singleMark :: body ++ [singleMark]

def join (words : List String) : String :=
  " ".intercalate (words.map fun word => String.ofList (quote word.toList))

end SuiteAtlas.Text.Shell
