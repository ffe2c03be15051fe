import SuiteAtlas.Text.Blank
import SuiteAtlas.Text.Word

/-!
Numbers as text.

An integer is written in ASCII digits, with blanks around it and a sign in front. `integer?` is
lenient: it passes over zeros at the start, underscores between digits, and a point with nothing
but zeros behind it.
-/

namespace SuiteAtlas.Text

def integerDigitLimit : Nat := 4300

/-- What is said of an integer with too many digits. -/
def tooManyDigitsMessage (count : Nat) : String :=
  s!"Exceeds the limit ({integerDigitLimit} digits) for integer string conversion: value has " ++
    s!"{count} digits; use sys.set_int_max_str_digits() to increase the limit"

def natOfDigits (digits : List Char) : Nat :=
  digits.foldl (fun n c => 10 * n + (c.toNat - '0'.toNat)) 0

/-- A sign at the start of a text, and what follows it. -/
def splitSign (text : List Char) : Bool × List Char :=
  match text with
  | '-' :: rest => (true, rest)
  | '+' :: rest => (false, rest)
  | rest => (false, rest)

/-- The blanks that may stand around a number: all but the information separators. -/
def isNumberBlank (c : Char) : Bool :=
  isBlank c && !(0x1c ≤ c.toNat && c.toNat < 0x20)

def trimNumber (text : List Char) : List Char :=
  dropEndWhile isNumberBlank (text.dropWhile isNumberBlank)

/-- The digits zero beyond ASCII; the other nine digits of each script follow its zero. -/
def zeroDigits : List Nat := [
  0x660, 0x6f0, 0x7c0, 0x966, 0x9e6, 0xa66, 0xae6, 0xb66, 0xbe6, 0xc66, 0xce6, 0xd66, 0xde6, 0xe50,
  0xed0, 0xf20, 0x1040, 0x1090, 0x17e0, 0x1810, 0x1946, 0x19d0, 0x1a80, 0x1a90, 0x1b50, 0x1bb0,
  0x1c40, 0x1c50, 0xa620, 0xa8d0, 0xa900, 0xa9d0, 0xa9f0, 0xaa50, 0xabf0, 0xff10, 0x104a0, 0x10d30,
  0x11066, 0x110f0, 0x11136, 0x111d0, 0x112f0, 0x11450, 0x114d0, 0x11650, 0x116c0, 0x11730, 0x118e0,
  0x11950, 0x11c50, 0x11d50, 0x11da0, 0x16a60, 0x16ac0, 0x16b50, 0x1d7ce, 0x1d7d8, 0x1d7e2, 0x1d7ec,
  0x1d7f6, 0x1e140, 0x1e2f0, 0x1e950, 0x1fbf0]

/-- A digit of another script as the ASCII digit of its value; any other character as it is. -/
def toAsciiDigit (c : Char) : Char :=
  match zeroDigits.find? fun first => first ≤ c.toNat && c.toNat < first + 10 with
  | some first => Char.ofNat ('0'.toNat + (c.toNat - first))
  | none => c

def isDigit (c : Char) : Bool :=
  isAsciiDigit (toAsciiDigit c)

/-- A number without the zeros at its start, among which underscores may stand. One zero stays in
front of a point and at the end. A minus behind zeros starts the number anew. -/
def withoutZerosFrom (last : Char) : List Char → Option (List Char)
  | [] => some [last]
  | c :: rest =>
    if c == '0' || c == '_' then withoutZerosFrom c rest
    else if isAsciiDigit c || c == '-' then some (c :: rest)
    else if c == '.' then some (last :: c :: rest)
    else none

/-- A number without the zeros at its start; it starts with a digit or a minus. -/
def withoutZeros? : List Char → Option (List Char)
  | [] => none
  | c :: rest =>
    if c == '0' then withoutZerosFrom c rest
    else if isAsciiDigit c || c == '-' then some (c :: rest)
    else none

/-- A number without the point at its end and the zeros behind that. -/
def withoutFraction (text : List Char) : List Char :=
  let fraction := text.dropWhile (· != '.')
  if 1 < fraction.length && (fraction.drop 1).all (· == '0') then text.takeWhile (· != '.')
  else text

/-- Whether single underscores stand inside a text, and none elsewhere. -/
def isGrouped (text : List Char) : Bool :=
  text.contains '_' && text.head? != some '_' && text.getLast? != some '_' &&
    (text.splitOn '_').all fun part => !part.isEmpty

/-- A number without the underscores that group its digits. -/
def withoutGroups (text : List Char) : List Char :=
  if isGrouped text then text.filter (· != '_') else text

/-- A number without a plus in front, or anything else that does not count. -/
def plainForm? (text : List Char) : Option (List Char) :=
  let unsigned? := fun text => (withoutZeros? text).map fun text =>
    withoutGroups (withoutFraction text)
  match text with
  | '+' :: '-' :: _ => none
  | '+' :: rest => unsigned? rest
  | '-' :: rest => (unsigned? rest).map ('-' :: ·)
  | rest => unsigned? rest

/-- The integer that a text writes as plainly as can be: digits that do not start with a zero, or
one zero, behind a minus or not. The minus counts as one of the digits that it may have. -/
def plainInteger? (text : List Char) : Option Int :=
  let (negative, digits) :=
    match text with
    | '-' :: digits => (true, digits)
    | digits => (false, digits)
  let isPlain := digits.all isAsciiDigit && (digits == ['0'] || digits.head?.any (· != '0'))
  if isPlain && text.length ≤ integerDigitLimit then
    let magnitude : Int := natOfDigits digits
    some (if negative then -magnitude else magnitude)
  else none

def integer? (text : List Char) : Option Int :=
  (plainForm? (trimNumber text)).bind plainInteger?

end SuiteAtlas.Text
