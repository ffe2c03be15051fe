import SuiteAtlas.Console.Expression.Token

/-!
Literal texts: the escapes in them.

Literals that stand side by side are one text, so all of them hold bytes or none does. In a text
that is not raw, `\x`, `\u` and `\U` need two, four and eight hexadecimal digits, and what they
write must be the number of a character; `\N` needs a name between braces. The names are not known
here: one that is spelled like a name counts as one. A byte needs the two digits of `\x`. The
position of an escape counts ten bytes for each character outside ASCII, which is the length of the
longest escape.
-/

namespace SuiteAtlas.Console.Expression

def escapeWidth? (letter : Char) : Option Nat :=
  if letter = 'x' then some 2 else if letter = 'u' then some 4
  else if letter = 'U' then some 8 else none

def hexadecimalValue (digits : List Char) : Nat :=
  digits.foldl (fun n c => 16 * n + ("0123456789abcdef".toList.idxOf c.toLower)) 0

/-- The fault of an escape with its letter at `position + 1`, which needs `width` digits. -/
def digitFault? (position : Nat) (letter : Char) (width : Nat) (rest : List Char) :
    Option Fault :=
  let digits := (rest.take width).takeWhile isHexadecimalDigit
  if digits.length < width then
    some (.badEscape position (position + digits.length + 1) (.truncated letter width))
  else if 0x10ffff < hexadecimalValue digits then
    some (.badEscape position (position + width + 1) .noCharacter)
  else none

/-- The number of bytes that a character takes where escapes are read. -/
def escapedSize (c : Char) : Nat :=
  if c.toNat < 128 then 1 else 10

/-- The names of characters are written with these characters. -/
def mayBeInName (c : Char) : Bool :=
  Text.isAsciiLetter c || Text.isAsciiDigit c || c == ' ' || c == '-'

/-- The fault of an escape by name, whose letter is at `position + 1`. -/
def nameFault? (position : Nat) (rest : List Char) : Option Fault :=
  match rest with
  | '\x7b' :: rest =>
    let name := rest.takeWhile (· != '\x7d')
    let size := name.foldl (fun size c => size + escapedSize c) 0
    if name.isEmpty || name.length = rest.length then
      some (.badEscape position (position + 2 + size) .noName)
    else if !name.all mayBeInName then
      some (.badEscape position (position + 3 + size) .unknownName)
    else none
  | _ => some (.badEscape position (position + 1) .noName)

/-- The first faulty escape in the rest of a text, which starts at `position`. -/
def escapeFault? (position : Nat) : List Char → Option Fault
  | [] => none
  | '\\' :: letter :: rest =>
    if 128 ≤ letter.toNat then escapeFault? (position + 16) rest
    else
      ((escapeWidth? letter).bind fun width => digitFault? position letter width rest).or
        ((if letter = 'N' then nameFault? position rest else none).or
          (escapeFault? (position + 2) rest))
  | c :: rest => escapeFault? (position + escapedSize c) rest

/-- The first faulty escape in the rest of a row of bytes, which starts at `position`. -/
def byteEscapeFault? (position : Nat) : List Char → Option Fault
  | [] => none
  | '\\' :: letter :: rest =>
    if letter = 'x' && ((rest.take 2).takeWhile isHexadecimalDigit).length < 2 then
      some (.badByteEscape position)
    else byteEscapeFault? (position + 2) rest
  | _ :: rest => byteEscapeFault? (position + 1) rest

def Literal.fault? (text : Literal) : Option Fault :=
  if text.bytes && text.content.any (128 ≤ ·.toNat) then some .notAByte
  else if text.raw || text.formatted then none
  else if text.bytes then byteEscapeFault? 0 text.content
  else escapeFault? 0 text.content

/-- The first fault in literals that stand side by side, behind one that may hold bytes. -/
def literalsFault? (bytes : Option Bool) : List Literal → Option Fault
  | [] => none
  | text :: rest =>
    match text.fault? with
    | some fault => some fault
    | none =>
      if bytes.any (· != text.bytes) then some .mixedBytes
      else literalsFault? (some text.bytes) rest

end SuiteAtlas.Console.Expression
