import SuiteAtlas.Json.Basic
import SuiteAtlas.Text.Numeral
import SuiteAtlas.Text.Printable

/-!
Writing JSON.

`line` writes a value on one line, `block` with every item and field on a line of its own, indented
by two blanks for each level. Both escape only the quotation mark, the backslash and control
characters, so every other character of a text stands for itself. Not every value can be written as
a block: `writeError?` finds the first part that is in the way.
-/

namespace SuiteAtlas.Json

open Number (Binary64)

def escapeChar (c : Char) : List Char :=
  if c == '"' then ['\\', '"']
  else if c == '\\' then ['\\', '\\']
  else if c == '\n' then ['\\', 'n']
  else if c == '\r' then ['\\', 'r']
  else if c == '\t' then ['\\', 't']
  else if c == '\x08' then ['\\', 'b']
  else if c == '\x0c' then ['\\', 'f']
  else if c.toNat < 0x20 then '\\' :: 'u' :: Text.hexDigits 4 c.toNat
  else [c]

def quoted (text : String) : List Char :=
  '"' :: text.toList.flatMap escapeChar ++ ['"']

def writeInt (n : Int) : List Char :=
  if n < 0 then '-' :: Number.digitsOf n.natAbs else Number.digitsOf n.natAbs

def writeFloat (x : Binary64) : List Char :=
  match x with
  | .nan => "NaN".toList
  | .infinite false => "Infinity".toList
  | .infinite true => "-Infinity".toList
  | x => x.toText

mutual

def line : Json → List Char
  | .null => "null".toList
  | .bool true => "true".toList
  | .bool false => "false".toList
  | .int n => writeInt n
  | .float x => writeFloat x
  | .string text => quoted text
  | .array items => '[' :: lineItems items ++ [']']
  | .object fields => '\x7b' :: lineFields fields ++ ['\x7d']

def lineItems : List Json → List Char
  | [] => []
  | [item] => line item
  | item :: rest => line item ++ ',' :: ' ' :: lineItems rest

def lineFields : List (String × Json) → List Char
  | [] => []
  | [(key, value)] => quoted key ++ ':' :: ' ' :: line value
  | (key, value) :: rest =>
    quoted key ++ ':' :: ' ' :: (line value ++ ',' :: ' ' :: lineFields rest)

end

def newLine (level : Nat) : List Char :=
  '\n' :: List.replicate (2 * level) ' '

mutual

/-- A value with its parts on lines of their own, inside `level` enclosing values. -/
def block (level : Nat) : Json → List Char
  | .null => "null".toList
  | .bool true => "true".toList
  | .bool false => "false".toList
  | .int n => writeInt n
  | .float x => writeFloat x
  | .string text => quoted text
  | .array [] => ['[', ']']
  | .array (item :: rest) => '[' :: blockItems (level + 1) (item :: rest) ++ newLine level ++ [']']
  | .object [] => ['\x7b', '\x7d']
  | .object (field :: rest) =>
    '\x7b' :: blockFields (level + 1) (field :: rest) ++ newLine level ++ ['\x7d']

def blockItems (level : Nat) : List Json → List Char
  | [] => []
  | [item] => newLine level ++ block level item
  | item :: rest => newLine level ++ block level item ++ ',' :: blockItems level rest

def blockFields (level : Nat) : List (String × Json) → List Char
  | [] => []
  | [(key, value)] => newLine level ++ quoted key ++ ':' :: ' ' :: block level value
  | (key, value) :: rest =>
    newLine level ++ quoted key ++
      ':' :: ' ' :: (block level value ++ ',' :: blockFields level rest)

end

def toLine (value : Json) : String :=
  String.ofList value.line

/-- Why a value cannot be written: an integer has too many digits, or lists and objects are nested
too deep. -/
inductive WriteError
  | tooManyDigits
  | tooDeep
  deriving DecidableEq, Repr

def WriteError.message : WriteError → String
  | .tooManyDigits =>
    s!"Exceeds the limit ({Text.integerDigitLimit} digits) for integer string conversion; " ++
      "use sys.set_int_max_str_digits() to increase the limit"
  | .tooDeep => "maximum recursion depth exceeded"

mutual

/-- What stops the writing of a value, in which `nesting` lists and objects may stand in each
other. -/
def writeError? : Nat → Json → Option WriteError
  | _, .int n =>
    if Number.digitCount n.natAbs > Text.integerDigitLimit then some .tooManyDigits else none
  | 0, .array _ => some .tooDeep
  | nesting + 1, .array items => itemsError? nesting items
  | 0, .object _ => some .tooDeep
  | nesting + 1, .object fields => fieldsError? nesting fields
  | _, _ => none

def itemsError? (nesting : Nat) : List Json → Option WriteError
  | [] => none
  | item :: rest => (writeError? nesting item).or (itemsError? nesting rest)

def fieldsError? (nesting : Nat) : List (String × Json) → Option WriteError
  | [] => none
  | (_, value) :: rest => (writeError? nesting value).or (fieldsError? nesting rest)

end

def toBlock (nesting : Nat) (value : Json) : Except WriteError String :=
  match value.writeError? nesting with
  | some error => .error error
  | none => .ok (String.ofList (value.block 0))

end SuiteAtlas.Json
