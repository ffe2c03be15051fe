import SuiteAtlas.Console.Expression.Fault
import SuiteAtlas.Text.Line
import SuiteAtlas.Text.Numeral

/-!
The tokens of an expression.

A text is cut into words, numbers, literals and signs. Blanks and comments separate tokens, and so
do line ends inside brackets; a line end outside of brackets is a token itself. Brackets must match.

`tokensOf` gives the tokens up to the end of the text or to the first fault in it. The fault counts
only when a reader gets that far, so it is kept as the `Ending` of the tokens.
-/

namespace SuiteAtlas.Console.Expression

/-- A literal text as it is written: whether its characters are bytes, whether backslashes in it
stand for themselves, whether expressions may stand in it, and what stands between the marks. -/
structure Literal where
  bytes : Bool
  raw : Bool
  formatted : Bool
  content : List Char
  deriving DecidableEq, Repr

/-- What a token is; of an integer in decimal digits that may be too long, the number of digits is
kept. -/
inductive Shape
  | fixed (text : String)
  | name (text : String)
  | number (digits : Nat)
  | literal (text : Literal)
  | newline
  | indent
  | finish
  deriving DecidableEq, Repr

/-- A token, the number of brackets that are open behind it, and its line. -/
structure Token where
  shape : Shape
  depth : Nat
  line : Nat
  deriving DecidableEq, Repr

/-- How the tokens of a text end: with the text, at a fault, or with a bracket that is still open,
which was opened on a line. -/
inductive Ending
  | finished
  | broken (fault : Fault)
  | unclosed (opening : Char) (line : Nat)
  deriving DecidableEq, Repr

/-- The fault at which tokens end for a reader that asks for one more. -/
def Ending.fault : Ending → Fault
  | .finished => .invalid
  | .broken fault => fault
  | .unclosed opening _ => .neverClosed opening

def keywords : List String := [
  "False", "None", "True", "and", "as", "assert", "async", "await", "break", "class", "continue",
  "def", "del", "elif", "else", "except", "finally", "for", "from", "global", "if", "import", "in",
  "is", "lambda", "nonlocal", "not", "or", "pass", "raise", "return", "try", "while", "with",
  "yield"]

def longSigns : List String := [
  "**=", "//=", ">>=", "<<=", "...", "!=", "**", "//", "<<", ">>", "<=", ">=", "==", "->", ":=",
  "+=", "-=", "*=", "/=", "%=", "&=", "|=", "^=", "@=", "<>"]

/-- What follows a row of digits, where single underscores may stand between the digits; if a digit
is missing, the text that stands in its place is the error. -/
def digitRow (isDigit : Char → Bool) : Bool → List Char → Except (List Char) (List Char)
  | false, '_' :: rest => digitRow isDigit true rest
  | needed, c :: rest =>
    if isDigit c then digitRow isDigit false rest
    else if needed then .error (c :: rest) else .ok (c :: rest)
  | needed, [] => if needed then .error [] else .ok []

def isWordPart (c : Char) : Bool :=
  Text.isAsciiLetter c || Text.isAsciiDigit c || c == '_' || 128 ≤ c.toNat

/-- Whether a number may end in front of a text: a word must not follow without a blank, unless it
is one of a few, or starts like one of the shorter ones of them. -/
def mayEndNumber (rest : List Char) : Bool :=
  let word := rest.takeWhile isWordPart
  ["and", "else", "for", "or", "not"].any (·.toList == word) ||
    ["if", "in", "is"].any (·.toList.isPrefixOf word) ||
    !rest.head?.any fun c => isWordPart c && c.toNat < 128

def endNumber (kind : NumberKind) (rest : List Char) : Except Fault (List Char) :=
  if mayEndNumber rest then .ok rest else .error (.badNumber kind)

/-- What follows a number whose sign for the base was just read. -/
def afterBase (kind : NumberKind) (isDigit : Char → Bool) (rest : List Char) :
    Except Fault (List Char) :=
  let wrongDigit (rest : List Char) : Option Char := rest.head?.filter Text.isAsciiDigit
  match digitRow isDigit true (if rest.head? = some '_' then rest.tail else rest) with
  | .error rest =>
    .error ((wrongDigit rest).elim (.badNumber kind) fun digit => .badDigit digit kind)
  | .ok rest => (wrongDigit rest).elim (endNumber kind rest) fun digit =>
      .error (.badDigit digit kind)

def decimalRow (needed : Bool) (rest : List Char) : Except Fault (List Char) :=
  (digitRow Text.isAsciiDigit needed rest).mapError fun _ => .badNumber .decimal

def isExponentSign (c : Char) : Bool :=
  c == 'e' || c == 'E'

def isImaginarySign (c : Char) : Bool :=
  c == 'j' || c == 'J'

/-- What follows the digits of a decimal number and those behind the point. -/
def afterFraction (rest : List Char) : Except Fault (List Char) := do
  let rest ← match rest with
    | c :: next :: more =>
      if isExponentSign c && (next == '+' || next == '-') then decimalRow true more
      else if isExponentSign c && Text.isAsciiDigit next then decimalRow true (next :: more)
      else .ok rest
    | _ => .ok rest
  if rest.head?.any isImaginarySign then endNumber .imaginary rest.tail
  else endNumber .decimal rest

/-- What follows a decimal number. Zeros at the start of a number that has other digits are a fault
unless it has a point, an exponent or the sign of an imaginary number. -/
def afterDecimal (text : List Char) : Except Fault (List Char) := do
  let rest ← decimalRow false text
  let digits := text.take (text.length - rest.length)
  match rest with
  | '.' :: rest =>
    afterFraction (← if rest.head?.any Text.isAsciiDigit then decimalRow true rest else .ok rest)
  | rest =>
    if digits.head? = some '0' && digits.any (fun c => '1' ≤ c && c ≤ '9') &&
        !rest.head?.any (fun c => isExponentSign c || isImaginarySign c) then
      .error .leadingZeros
    else afterFraction rest

def isHexadecimalDigit (c : Char) : Bool :=
  Text.isAsciiDigit c || ('a' ≤ c && c ≤ 'f') || ('A' ≤ c && c ≤ 'F')

def afterNumber (text : List Char) : Except Fault (List Char) :=
  match text with
  | '0' :: c :: rest =>
    if c == 'x' || c == 'X' then afterBase .hexadecimal isHexadecimalDigit rest
    else if c == 'o' || c == 'O' then afterBase .octal (fun c => '0' ≤ c && c ≤ '7') rest
    else if c == 'b' || c == 'B' then afterBase .binary (fun c => c == '0' || c == '1') rest
    else afterDecimal text
  | _ => afterDecimal text

/-- The number of digits that limits an integer: of a decimal one all digits, unless it is zero. -/
def integerLength (written : List Char) : Nat :=
  if written.head? = some '0' || written.any (fun c => !Text.isAsciiDigit c && c != '_') then 0
  else written.countP Text.isAsciiDigit

/-- The content of a literal text up to the mark that ends it, and what follows; without such a
mark, the number of lines that were passed. A backslash takes the next character with it. -/
def closeLiteral (mark : Char) (tripled : Bool) (collected : List Char) (passed : Nat) :
    List Char → Except Nat (List Char × List Char)
  | [] => .error passed
  | '\\' :: c :: rest =>
    closeLiteral mark tripled (c :: '\\' :: collected) (if c = '\n' then passed + 1 else passed)
      rest
  | c :: rest =>
    if c = '\n' && !tripled then .error passed
    else if c = mark && (!tripled || [mark, mark].isPrefixOf rest) then
      .ok (collected.reverse, if tripled then rest.drop 2 else rest)
    else closeLiteral mark tripled (c :: collected) (if c = '\n' then passed + 1 else passed) rest

def isMark (c : Char) : Bool :=
  c == Text.singleMark || c == '"'

def literalWords : List String := ["", "b", "u", "r", "f", "br", "rb", "fr", "rf"]

/-- The literal text behind a word, from its first mark on, and what follows. -/
def readLiteral (line : Nat) (word : List Char) (mark : Char) (rest : List Char) :
    Except Fault (Literal × List Char) := do
  let tripled := [mark, mark].isPrefixOf rest
  let (content, rest) ←
    (closeLiteral mark tripled [] 0 (if tripled then rest.drop 2 else rest)).mapError fun passed =>
      Fault.unterminated tripled (line + passed)
  return (⟨word.contains 'b', word.contains 'r', word.contains 'f', content⟩, rest)

/-- The fault in a word, if it has a character that no word has. -/
def wordFault? (word : List Char) : Option Fault :=
  match word with
  | [] => none
  | c :: rest =>
    let mayStart := Text.isWord c && !Text.isDigit c
    (if mayStart then rest.find? (!Text.isWord ·) else some c).map .badCharacter

def wordShape (word : String) : Shape :=
  if keywords.contains word then .fixed word else .name word

/-- The brackets that are open, the innermost first, each with its line. -/
abbrev Brackets := List (Char × Nat)

def closingOf (opening : Char) : Char :=
  if opening = '(' then ')' else if opening = '[' then ']' else '\x7d'

/-- As many brackets may be open at once. -/
def depthLimit : Nat := 200

/-- The open brackets behind a sign. -/
def bracketsAfter (opened : Brackets) (line : Nat) (sign : Char) : Except Fault Brackets :=
  if sign == '(' || sign == '[' || sign == '\x7b' then
    if depthLimit ≤ opened.length then .error .tooDeep else .ok ((sign, line) :: opened)
  else if sign == ')' || sign == ']' || sign == '\x7d' then
    match opened with
    | [] => .error (.unmatched sign)
    | (opening, openLine) :: opened =>
      if sign = closingOf opening then .ok opened
      else .error (.mismatched sign opening (if openLine = line then none else some openLine))
  else .ok opened

/-- The token at the start of a text that starts with no blank, the open brackets behind it, and
what follows. -/
def readToken (opened : Brackets) (line : Nat) (c : Char) (rest : List Char) :
    Except Fault (Shape × Brackets × List Char) := do
  if Text.isAsciiDigit c || (c == '.' && rest.head?.any Text.isAsciiDigit) then
    let behind ← afterNumber (c :: rest)
    return (.number (integerLength ((c :: rest).take (rest.length + 1 - behind.length))), opened,
      behind)
  else
    let word := (c :: rest).takeWhile isWordPart
    let behind := (c :: rest).drop word.length
    let small := word.map Char.toLower
    match behind.head?.filter fun mark => isMark mark && literalWords.contains (String.ofList small)
      with
    | some mark =>
      let (text, rest) ← readLiteral line small mark behind.tail
      return (.literal text, opened, rest)
    | none =>
      if word.isEmpty then
        match longSigns.find? fun sign => sign.toList.isPrefixOf (c :: rest) with
        | some sign => return (.fixed sign, opened, (c :: rest).drop sign.length)
        | none =>
          unless Text.isPrintable c do throw (.badCharacter c)
          return (.fixed c.toString, ← bracketsAfter opened line c, rest)
      else
        match wordFault? word with
        | some fault => throw fault
        | none => return (wordShape (String.ofList word), opened, behind)

/-- Where a text is cut next: the open brackets, the line, whether a token stands before on this
line, and whether the line starts with blanks. Line ends inside brackets do not end the line. -/
structure Place where
  opened : Brackets := []
  line : Nat := 1
  begun : Bool := false
  indented : Bool := false
  deriving DecidableEq, Repr

/-- The tokens of the rest of a text, the last one first, behind those that were `collected`.
Every step takes at least one character, so `fuel` is the length of the text and one more. -/
def tokensFrom (fuel : Nat) (place : Place) (collected : List Token) (rest : List Char) :
    List Token × Ending :=
  let token (shape : Shape) (depth : Nat) : Token := ⟨shape, depth, place.line⟩
  match fuel, rest with
  | 0, _ => (collected, .finished)
  | _, [] =>
    match place.opened with
    | (opening, line) :: _ => (collected, .unclosed opening line)
    | [] =>
      let collected := if place.begun then token .newline 0 :: collected else collected
      (token .finish 0 :: collected, .finished)
  | fuel + 1, c :: rest =>
    if c == ' ' || c == '\t' || c == '\x0c' then
      tokensFrom fuel { place with indented := place.indented || !place.begun } collected rest
    else if c == '#' then tokensFrom fuel place collected (rest.dropWhile (· != '\n'))
    else if c == '\n' then
      if place.opened.isEmpty then
        let collected := if place.begun then token .newline 0 :: collected else collected
        tokensFrom fuel { line := place.line + 1 } collected rest
      else tokensFrom fuel { place with line := place.line + 1 } collected rest
    else if c == '\\' then
      match rest with
      | '\n' :: rest => tokensFrom fuel { place with line := place.line + 1 } collected rest
      | _ => (collected, .broken .badContinuation)
    else
      let collected :=
        if place.indented && !place.begun then token .indent 0 :: collected else collected
      match readToken place.opened place.line c rest with
      | .error fault => (collected, .broken fault)
      | .ok (shape, opened, behind) =>
        let passed := ((c :: rest).take (rest.length + 1 - behind.length)).count '\n'
        tokensFrom fuel { place with opened, begun := true, line := place.line + passed }
          (token shape opened.length :: collected) behind

def tokensOf (text : List Char) : Array Token × Ending :=
  let (tokens, ending) := tokensFrom (text.length + 1) {} [] text
  (tokens.reverse.toArray, ending)

end SuiteAtlas.Console.Expression
