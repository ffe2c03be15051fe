import SuiteAtlas.Files.Basic

/-!
Glob patterns.

A pattern is a row of parts between slashes. In a part `*` stands for any characters, `?` for one,
and a bracket for one character of a set; the part `**` stands for any number of folders, and a
part without such signs names one entry. `Files.glob` finds the paths below a folder that a pattern
describes.
-/

namespace SuiteAtlas

namespace Glob

/-- A sign of a part: any characters, one character of a set or outside it, or one character. -/
inductive Sign
  | star
  | one
  | set (negated : Bool) (ranges : List (Char × Char))
  | char (c : Char)
  deriving DecidableEq, Repr

/-- A part of a pattern; `here` is the empty part that a slash at the end leaves. -/
inductive Part
  | folders
  | entry (name : String)
  | like (signs : List Sign)
  | here
  deriving DecidableEq, Repr

inductive Error
  | empty
  | absolute
  | mixedFolders
  | noParts
  | onlyHere
  deriving DecidableEq, Repr

def Error.message : Error → String
  | .empty => "Unacceptable pattern: \x27\x27"
  | .absolute => "Non-relative patterns are unsupported"
  | .mixedFolders => "Invalid pattern: \x27**\x27 can only be an entire path component"
  | .noParts => "tuple index out of range"
  | .onlyHere => "\x27_TerminatingSelector\x27 object has no attribute \x27select_from\x27"

/-! ### Sets

What stands in brackets is cut at hyphens into runs: a hyphen makes a range of the last character of
a run and the first one of the next. A range in descending order is dropped, which joins the rests
of its two runs. An exclamation mark at the start of what remains negates the set.
-/

/-- The runs of a text, where the first `skip` characters are no hyphens that make a range. -/
def runsFrom (skip : Nat) (text : List Char) : List (List Char) :=
  let run := text.take skip ++ (text.drop skip).takeWhile (· != '-')
  match _h : (text.drop skip).dropWhile (· != '-') with
  | [] => [text]
  | [c] => [run ++ [c]]
  | _ :: next :: rest => run :: runsFrom 2 (next :: rest)
  termination_by text.length
  decreasing_by
    have fewer := Text.length_dropWhile_le (· != '-') (text.drop skip)
    simp only [_h, List.length_cons, List.length_drop] at fewer
    simp only [List.length_cons]
    omega

/-- The runs of what stands in brackets: a hyphen at its start, also behind an exclamation mark, is
an ordinary character. -/
def runs (text : List Char) : List (List Char) :=
  runsFrom (if text.head? = some '!' then 2 else 1) text

/-- Puts a run before others; if its last character comes after the first one of the next run, the
two characters are dropped and the rests are one run. -/
def joinRun (run : List Char) : List (List Char) → List (List Char)
  | [] => [run]
  | next :: rest =>
    match run.getLast?, next.head? with
    | some last, some first =>
      if first < last then (run.dropLast ++ next.drop 1) :: rest else run :: next :: rest
    | _, _ => run :: next :: rest

/-- The ranges of runs that follow each other, where `start` is the first character of the range
that the last run ended in. -/
def rangesOfRuns (start : Option Char) : List (List Char) → List (Char × Char)
  | [] => start.toList.map fun c => (c, c)
  | run :: rest =>
    let (ranges, singles) :=
      match start, run with
      | some c, d :: run => ([(c, d)], run)
      | some c, [] => ([(c, c)], [])
      | none, run => ([], run)
    if rest.isEmpty then ranges ++ singles.map fun c => (c, c)
    else ranges ++ singles.dropLast.map (fun c => (c, c)) ++ rangesOfRuns run.getLast? rest

/-- The set that the runs in brackets describe. -/
def setOfRuns (runs : List (List Char)) : Sign :=
  match runs with
  | ['!'] :: next :: rest => .set true (rangesOfRuns none (('-' :: next) :: rest))
  | ('!' :: run) :: rest => .set true (rangesOfRuns none (run :: rest))
  | runs => .set false (rangesOfRuns none runs)

/-- The set that what stands in brackets describes. -/
def setOf (text : List Char) : Sign :=
  setOfRuns ((runs text).foldr joinRun [])

/-- The characters up to the closing bracket, and what follows it. A closing bracket that comes
first is one of the characters. -/
def members? (text : List Char) : Option (List Char × List Char) :=
  let (first, rest) :=
    match text with
    | '!' :: ']' :: rest => (['!', ']'], rest)
    | '!' :: rest => (['!'], rest)
    | ']' :: rest => ([']'], rest)
    | rest => ([], rest)
  match rest.dropWhile (· != ']') with
  | _ :: after => some (first ++ rest.takeWhile (· != ']'), after)
  | [] => none

/-- The set that a bracket opens, and what follows it. -/
def set? (text : List Char) : Option (Sign × List Char) :=
  (members? text).map fun (members, rest) => (setOf members, rest)

/-- The signs of a part, of which at most `fuel` are read; a part has no more than characters. -/
def signsFrom : Nat → List Char → List Sign
  | 0, _ => []
  | _ + 1, [] => []
  | fuel + 1, c :: rest =>
    if c == '*' then .star :: signsFrom fuel rest
    else if c == '?' then .one :: signsFrom fuel rest
    else if c == '[' then
      match set? rest with
      | some (sign, rest) => sign :: signsFrom fuel rest
      | none => .char '[' :: signsFrom fuel rest
    else .char c :: signsFrom fuel rest

def signs (text : List Char) : List Sign :=
  signsFrom text.length text

def Sign.accepts (sign : Sign) (c : Char) : Bool :=
  match sign with
  | .star | .one => true
  | .set negated ranges => negated != ranges.any fun r => r.1 ≤ c && c ≤ r.2
  | .char d => c == d

/-- Whether a row of signs describes a whole name. -/
def accepts : List Sign → List Char → Bool
  | [], text => text.isEmpty
  | .star :: signs, [] => accepts signs []
  | .star :: signs, c :: text => accepts signs (c :: text) || accepts (.star :: signs) text
  | _ :: _, [] => false
  | sign :: signs, c :: text => sign.accepts c && accepts signs text
  termination_by signs text => (signs.length, text.length)

/-- Whether two stars stand side by side. -/
def hasFolders : List Char → Bool
  | '*' :: '*' :: _ => true
  | _ :: rest => hasFolders rest
  | [] => false

def Part.ofString (text : String) : Except Error Part :=
  let chars := text.toList
  if text == "**" then .ok .folders
  else if hasFolders chars then .error .mixedFolders
  else if chars.any fun c => c == '*' || c == '?' || c == '[' then .ok (.like (signs chars))
  else .ok (.entry text)

def parts (pattern : String) : Except Error (List Part) := do
  let path := Path.ofString pattern
  if pattern == "" then .error .empty
  else if path.isAbsolute then .error .absolute
  else
    let ending := if pattern.toList.getLast? == some '/' then [Part.here] else []
    if path.parts.isEmpty then .error (if ending.isEmpty then .noParts else .onlyHere)
    else return (← path.parts.mapM Part.ofString) ++ ending

end Glob

namespace Files

open Glob (Part)

/-- The folders in a folder, at any depth up to `depth`, and the folder itself. -/
def foldersBelow (files : Files) : Nat → Path → Except FileError (List Path)
  | 0, folder => .ok [folder]
  | depth + 1, folder => do
    let names ← files.namesIn folder
    let inner ← (names.map folder.child).filterM files.isFolder
    let below ← inner.mapM (foldersBelow files depth)
    return folder :: below.flatten

def select (files : Files) (folder : Path) : List Part → Except FileError (List Path)
  | [] => .ok [folder]
  | .here :: _ => .ok [folder]
  | .entry name :: rest => do
    let path := folder.child name
    if ← (if rest.isEmpty then files.isThere path else files.isFolder path) then
      select files path rest
    else return []
  | .like signs :: rest => do
    let names ← files.namesIn folder
    let found := (names.filter fun name => Glob.accepts signs name.toList).map folder.child
    let found ← if rest.isEmpty then pure found else found.filterM files.isFolder
    return (← found.mapM fun path => select files path rest).flatten
  | .folders :: rest => do
    let folders ← files.foldersBelow files.entries.length folder
    return (← folders.mapM fun path => select files path rest).flatten.eraseDups

/-- The paths below a folder that a row of parts describes; below what is no folder there are
none. -/
def glob (files : Files) (folder : Path) (parts : List Part) : Except FileError (List Path) := do
  if ← files.isFolder folder then files.select folder parts else return []

end Files

end SuiteAtlas
