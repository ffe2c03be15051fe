import SuiteAtlas.Json.Basic
import SuiteAtlas.Text.Numeral

/-!
Reading JSON.

The reader takes the first fault it meets from left to right. A fault of the notation is placed by
the number of characters that are left where it stands, which `ReadError` turns into an offset, a
line and a column. Besides the notation there are two bounds: an integer may have at most
`integerDigitLimit` digits, and lists and objects may be nested as deep as `nesting` says.
-/

namespace SuiteAtlas.Json

open Number (Binary64)
open Text (isAsciiDigit after? natOfDigits integerDigitLimit)

inductive Cause
  | expectingKey
  | expectingColon
  | expectingComma
  | expectingValue
  | unterminatedText
  | controlCharacter
  | badEscape
  | badUnicodeEscape
  | extraData
  deriving DecidableEq, Repr

def Cause.message : Cause → String
  | .expectingKey => "Expecting property name enclosed in double quotes"
  | .expectingColon => "Expecting ':' delimiter"
  | .expectingComma => "Expecting ',' delimiter"
  | .expectingValue => "Expecting value"
  | .unterminatedText => "Unterminated string starting at"
  | .controlCharacter => "Invalid control character at"
  | .badEscape => "Invalid \\escape"
  | .badUnicodeEscape => "Invalid \\uXXXX escape"
  | .extraData => "Extra data"

/-- What other values stand in. -/
inductive Container
  | array
  | object
  deriving DecidableEq, Repr

def Container.toString : Container → String
  | .array => "array"
  | .object => "object"

/-- A fault met by the reader, with the number of characters that were left. -/
inductive Fault
  | grammar (cause : Cause) (left : Nat)
  | tooManyDigits (count : Nat)
  | tooDeep (container : Container)
  deriving DecidableEq, Repr

def isSpace (c : Char) : Bool :=
  c == ' ' || c == '\t' || c == '\n' || c == '\r'

def skipSpace (text : List Char) : List Char :=
  text.dropWhile isSpace

def fault (cause : Cause) (text : List Char) : Fault :=
  .grammar cause text.length

def hexValue? (c : Char) : Option Nat :=
  if '0' ≤ c && c ≤ '9' then some (c.toNat - '0'.toNat)
  else if 'a' ≤ c && c ≤ 'f' then some (c.toNat - 'a'.toNat + 10)
  else if 'A' ≤ c && c ≤ 'F' then some (c.toNat - 'A'.toNat + 10)
  else none

/-- The unit of four hexadecimal digits at the start of a text that goes on after them. -/
def unit? : List Char → Option (Nat × List Char)
  | a :: b :: c :: d :: next :: rest => do
    let value := (((← hexValue? a) * 16 + (← hexValue? b)) * 16 + (← hexValue? c)) * 16
    return (value + (← hexValue? d), next :: rest)
  | _ => none

def isHighSurrogate (n : Nat) : Bool := 0xd800 ≤ n && n < 0xdc00
def isLowSurrogate (n : Nat) : Bool := 0xdc00 ≤ n && n < 0xe000

/-- The low half of a surrogate pair, written as an escape at the start of a text. -/
def lowHalf? : List Char → Option (Nat × List Char)
  | '\\' :: 'u' :: text =>
    match unit? text with
    | some (low, rest) => if isLowSurrogate low then some (low, rest) else none
    | none => none
  | _ => none

/-- The character of an escape of one letter. -/
def escaped? (c : Char) : Option Char :=
  match c with
  | '"' => some '"'
  | '\\' => some '\\'
  | '/' => some '/'
  | 'b' => some '\x08'
  | 'f' => some '\x0c'
  | 'n' => some '\n'
  | 'r' => some '\r'
  | 't' => some '\t'
  | _ => none

/-- What half of a surrogate pair is read as when it stands alone, since it is no character. -/
def replacement : Char := '\ufffd'

/-- One item of a text: its end, or a character. -/
inductive Item
  | close
  | char (c : Char)
  deriving DecidableEq, Repr

/-- The fault of a text that is never closed, where `opening` is what follows its opening mark. -/
def unterminated (opening : List Char) : Fault :=
  .grammar .unterminatedText (opening.length + 1)

/-- Reads the item at the start of the rest of a text that began with `opening`. -/
def readItem (opening : List Char) : List Char → Except Fault (Item × List Char)
  | [] => .error (unterminated opening)
  | '"' :: rest => .ok (.close, rest)
  | ['\\'] => .error (unterminated opening)
  | '\\' :: 'u' :: text =>
    match unit? text with
    | none => .error (fault .badUnicodeEscape ('u' :: text))
    | some (unit, rest) =>
      if isHighSurrogate unit then
        match lowHalf? rest with
        | some (low, rest) =>
          .ok (.char (Char.ofNat (0x10000 + (unit - 0xd800) * 0x400 + (low - 0xdc00))), rest)
        | none => .ok (.char replacement, rest)
      else if isLowSurrogate unit then .ok (.char replacement, rest)
      else .ok (.char (Char.ofNat unit), rest)
  | '\\' :: c :: rest =>
    match escaped? c with
    | some d => .ok (.char d, rest)
    | none => .error (fault .badEscape ('\\' :: c :: rest))
  | c :: rest =>
    if c.toNat < 0x20 then .error (fault .controlCharacter (c :: rest))
    else .ok (.char c, rest)

/-- Reads the rest of a text up to its closing mark. Every item takes a character, so `fuel` beyond
the length of the text is never short. -/
def readText (opening : List Char) : Nat → List Char → Except Fault (List Char × List Char)
  | 0, _ => .error (unterminated opening)
  | fuel + 1, text =>
    match readItem opening text with
    | .error fault => .error fault
    | .ok (.close, rest) => .ok ([], rest)
    | .ok (.char c, rest) => (readText opening fuel rest).map fun (more, rest) => (c :: more, rest)

/-- The text that starts after an opening mark. -/
def readQuoted (fuel : Nat) (text : List Char) : Except Fault (String × List Char) :=
  (readText text fuel text).map fun (content, rest) => (String.ofList content, rest)

/-- A number as it is written: the digits before the point, after it, and the power of ten. -/
structure Numeral where
  negative : Bool
  whole : List Char
  fraction : List Char
  exponent : Option (Bool × List Char)
  deriving DecidableEq, Repr

def digits? (text : List Char) : Option (List Char × List Char) :=
  let digits := text.takeWhile isAsciiDigit
  if digits.isEmpty then none else some (digits, text.dropWhile isAsciiDigit)

/-- The digits before the point: a zero alone, or a row of digits that starts with another one. -/
def whole? (text : List Char) : Option (List Char × List Char) :=
  match text with
  | '0' :: rest => some (['0'], rest)
  | _ => digits? text

def fraction? (text : List Char) : Option (List Char × List Char) :=
  match text with
  | '.' :: rest => digits? rest
  | _ => none

def exponent? (text : List Char) : Option ((Bool × List Char) × List Char) :=
  match text with
  | c :: rest =>
    if c == 'e' || c == 'E' then
      let (negative, rest) :=
        match rest with
        | '-' :: rest => (true, rest)
        | '+' :: rest => (false, rest)
        | rest => (false, rest)
      (digits? rest).map fun (digits, rest) => ((negative, digits), rest)
    else none
  | [] => none

/-- The longest number at the start of a text. -/
def numeral? (text : List Char) : Option (Numeral × List Char) :=
  let (negative, rest) :=
    match text with
    | '-' :: rest => (true, rest)
    | rest => (false, rest)
  (whole? rest).map fun (whole, rest) =>
    let (fraction, rest) := (fraction? rest).getD ([], rest)
    match exponent? rest with
    | some (exponent, rest) => (⟨negative, whole, fraction, some exponent⟩, rest)
    | none => (⟨negative, whole, fraction, none⟩, rest)

/-- The number nearest to a numeral. -/
def Numeral.toBinary64 (n : Numeral) : Binary64 :=
  let power : Int :=
    match n.exponent with
    | some (negative, digits) =>
      if negative then -(natOfDigits digits : Int) else (natOfDigits digits : Int)
    | none => 0
  Binary64.ofDecimal n.negative (natOfDigits (n.whole ++ n.fraction)) (power - n.fraction.length)

/-- A numeral without fraction and exponent is an integer, any other a floating-point number. -/
def Numeral.toJson (n : Numeral) : Except Fault Json :=
  if n.fraction.isEmpty && n.exponent.isNone then
    if n.whole.length > integerDigitLimit then .error (.tooManyDigits n.whole.length)
    else
      let value : Int := natOfDigits n.whole
      .ok (.int (if n.negative then -value else value))
  else .ok (.float n.toBinary64)

def words : List (String × Json) :=
  [("null", .null), ("true", .bool true), ("false", .bool false), ("NaN", .float .nan),
    ("Infinity", .float (.infinite false)), ("-Infinity", .float (.infinite true))]

def word? (text : List Char) : Option (Json × List Char) :=
  words.findSome? fun (word, value) => (after? word.toList text).map fun rest => (value, rest)

/-- The word or number at the start of a text. -/
def readScalar (text : List Char) : Except Fault (Json × List Char) :=
  match word? text with
  | some found => .ok found
  | none =>
    match numeral? text with
    | some (numeral, rest) => numeral.toJson.map fun value => (value, rest)
    | none => .error (fault .expectingValue text)

mutual

/-- Reads the value at the start of a text, in which `nesting` lists and objects may stand in each
other. Every step takes a character, so `fuel` beyond the length of the text is never short. -/
def readValue : Nat → Nat → List Char → Except Fault (Json × List Char)
  | 0, _, text => .error (fault .expectingValue text)
  | fuel + 1, nesting, text =>
    match text, nesting with
    | '"' :: rest, _ => do
      let (value, rest) ← readQuoted fuel rest
      return (.string value, rest)
    | '[' :: _, 0 => .error (.tooDeep .array)
    | '[' :: rest, nesting + 1 =>
      match skipSpace rest with
      | ']' :: rest => .ok (.array [], rest)
      | rest => do
        let (items, rest) ← readItems fuel nesting rest
        return (.array items, rest)
    | '\x7b' :: _, 0 => .error (.tooDeep .object)
    | '\x7b' :: rest, nesting + 1 =>
      match skipSpace rest with
      | '\x7d' :: rest => .ok (.object [], rest)
      | rest => do
        let (fields, rest) ← readFields fuel nesting rest
        return (ofFields fields, rest)
    | text, _ => readScalar text

def readItems : Nat → Nat → List Char → Except Fault (List Json × List Char)
  | 0, _, text => .error (fault .expectingValue text)
  | fuel + 1, nesting, text => do
    let (item, rest) ← readValue fuel nesting text
    match skipSpace rest with
    | ']' :: rest => return ([item], rest)
    | ',' :: rest =>
      let (items, rest) ← readItems fuel nesting (skipSpace rest)
      return (item :: items, rest)
    | rest => .error (fault .expectingComma rest)

def readFields : Nat → Nat → List Char → Except Fault (List (String × Json) × List Char)
  | 0, _, text => .error (fault .expectingKey text)
  | fuel + 1, nesting, text =>
    match text with
    | '"' :: rest => do
      let (key, rest) ← readQuoted fuel rest
      match skipSpace rest with
      | ':' :: rest =>
        let (value, rest) ← readValue fuel nesting (skipSpace rest)
        match skipSpace rest with
        | '\x7d' :: rest => return ([(key, value)], rest)
        | ',' :: rest =>
          let (fields, rest) ← readFields fuel nesting (skipSpace rest)
          return ((key, value) :: fields, rest)
        | rest => .error (fault .expectingComma rest)
      | rest => .error (fault .expectingColon rest)
    | text => .error (fault .expectingKey text)

end

/-- Reads a text that holds one value and nothing else but space. -/
def readAll (nesting : Nat) (text : List Char) : Except Fault Json := do
  let (value, rest) ← readValue (text.length + 1) nesting (skipSpace text)
  match skipSpace rest with
  | [] => return value
  | rest => .error (fault .extraData rest)

inductive ReadError
  | grammar (cause : Cause) (offset line column : Nat)
  | tooManyDigits (count : Nat)
  | tooDeep (container : Container)
  deriving DecidableEq, Repr

def ReadError.message : ReadError → String
  | .grammar cause offset line column =>
    s!"{cause.message}: line {line} column {column} (char {offset})"
  | .tooManyDigits count => Text.tooManyDigitsMessage count
  | .tooDeep container =>
    s!"maximum recursion depth exceeded while decoding a JSON {container.toString} from a " ++
      "unicode string"

/-- Places a fault in the text that was read: lines and columns count from one. -/
def Fault.inText (fault : Fault) (text : List Char) : ReadError :=
  match fault with
  | .grammar cause left =>
    let before := text.take (text.length - left)
    let line := before.count '\n' + 1
    let column := (before.reverse.takeWhile (· != '\n')).length + 1
    .grammar cause before.length line column
  | .tooManyDigits count => .tooManyDigits count
  | .tooDeep container => .tooDeep container

/-- Reads a text that holds one value. How deep this may be nested, `nesting`, is what the stack has
room for where the reader is called. -/
def read (nesting : Nat) (text : List Char) : Except ReadError Json :=
  (readAll nesting text).mapError (·.inText text)

end SuiteAtlas.Json
