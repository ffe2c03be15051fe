import SuiteAtlas.Text.Blank
import SuiteAtlas.Text.Word

/-!
The line patterns of a test class.

`heading?` recognises the declaration of a test function, `isMethod` that of any method or
constructor, `tagPayload?` the comment that lists tags, and `findCall?` the next assertion of a
line. An assertion is a chain of names joined by dots whose last name is the operator and whose
name before that is `assert`; the chain must not go on to the left.
-/

namespace SuiteAtlas.Source

open Text (after? isBlank isWord isAsciiLetter trimStart)

/-- Skips the blanks between two words, of which there must be one. -/
def skipGap? (text : List Char) : Option (List Char) :=
  match text with
  | c :: rest => if isBlank c then some (trimStart rest) else none
  | [] => none

/-- What follows an opening parenthesis that may have blanks before it. -/
def openCall? (text : List Char) : Option (List Char) :=
  after? ['('] (trimStart text)

def functionWord : List Char := "Function".toList
def constructorWord : List Char := "constructor".toList
def testWord : List Char := "test_".toList
def assertWord : List Char := "assert".toList
def commentMark : List Char := "//".toList
def tagsMark : List Char := "#tags:".toList

def heading? (line : List Char) : Option (List Char) := do
  let rest ← after? functionWord (trimStart line)
  let rest ← skipGap? rest
  let rest ← after? testWord rest
  let name := rest.takeWhile isWord
  let _ ← openCall? (rest.dropWhile isWord)
  if name.isEmpty then none else some (testWord ++ name)

/-- Whether a text starts with a word that ends there. -/
def startsWithWord (word text : List Char) : Bool :=
  match after? word text with
  | some (c :: _) => !isWord c
  | some [] => true
  | none => false

theorem length_skipGap?_lt {text rest : List Char} (h : skipGap? text = some rest) :
    rest.length < text.length := by
  cases text with
  | nil => simp [skipGap?] at h
  | cons c tail =>
    by_cases hc : isBlank c
    · simp only [skipGap?, hc, if_true, Option.some.injEq] at h
      rw [← h, trimStart, List.length_cons]
      exact Nat.lt_succ_of_le (Text.length_dropWhile_le _ _)
    · simp [skipGap?, hc] at h

/-- Whether a row of words of letters leads to the keyword of a method. -/
def leadsToMethod (text : List Char) : Bool :=
  if startsWithWord functionWord text || startsWithWord constructorWord text then true
  else if (text.takeWhile isAsciiLetter).isEmpty then false
  else
    match _h : skipGap? (text.dropWhile isAsciiLetter) with
    | some rest => leadsToMethod rest
    | none => false
  termination_by text.length
  decreasing_by exact Nat.lt_of_lt_of_le (length_skipGap?_lt _h) (Text.length_dropWhile_le _ _)

def isMethod (line : List Char) : Bool :=
  leadsToMethod (trimStart line)

def isComment (line : List Char) : Bool :=
  (after? commentMark (trimStart line)).isSome

/-- What a comment that starts a text lists as tags. -/
def tagPayloadHere? (text : List Char) : Option (List Char) := do
  let rest ← after? commentMark text
  after? tagsMark (trimStart rest)

/-- What the first comment of a line with tags lists. -/
def tagPayload? : List Char → Option (List Char)
  | [] => none
  | c :: rest => (tagPayloadHere? (c :: rest)).or (tagPayload? rest)

def isChainChar (c : Char) : Bool :=
  isWord c || c == '$'

/-- The operator at the start of a text, and what follows its opening parenthesis. -/
def operator? (text : List Char) : Option (List Char × List Char) := do
  let operator := text.takeWhile isWord
  let rest ← openCall? (text.dropWhile isWord)
  if operator.isEmpty then none else some (operator, rest)

/-- The operator of the assertion that a chain at the start of a text makes, and what follows its
opening parenthesis. -/
def callHere? (text : List Char) : Option (List Char × List Char) :=
  let name := text.takeWhile isChainChar
  match _h : text.dropWhile isChainChar with
  | '.' :: rest =>
    if name.isEmpty then none
    else (callHere? rest).or (if name = assertWord then operator? rest else none)
  | _ => none
  termination_by text.length
  decreasing_by
    have := Text.length_dropWhile_le isChainChar text
    rw [_h, List.length_cons] at this
    exact this

/-- An assertion found in a text: how many characters stand before it and in its chain up to the
opening parenthesis, and its operator. -/
structure Call where
  offset : Nat
  head : Nat
  operator : List Char
  deriving DecidableEq, Repr

/-- Whether a chain may start after a character. -/
def mayPrecede (before : Option Char) : Bool :=
  match before with
  | some c => !(isChainChar c || c == '.')
  | none => true

/-- The first assertion of a text that stands after the character `before`. -/
def findCall? (before : Option Char) : List Char → Option Call
  | [] => none
  | c :: rest =>
    let here := if mayPrecede before then callHere? (c :: rest) else none
    match here with
    | some (operator, tail) => some ⟨0, (c :: rest).length - tail.length, operator⟩
    | none => (findCall? (some c) rest).map fun call => { call with offset := call.offset + 1 }

end SuiteAtlas.Source
