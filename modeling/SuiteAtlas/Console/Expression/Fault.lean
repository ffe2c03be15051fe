import SuiteAtlas.Text.Numeral
import SuiteAtlas.Text.Printable

/-!
Why a text is no expression.

A fault is found in one of four places: where the text is cut into tokens, where a literal is read,
where the tokens are put together, and where they are given a value. Some faults of the third kind
name the mistake that was probably made; the others are only `Fault.invalid`.
-/

namespace SuiteAtlas.Console.Expression

inductive NumberKind
  | decimal
  | hexadecimal
  | octal
  | binary
  | imaginary
  deriving DecidableEq, Repr

def NumberKind.name : NumberKind → String
  | .decimal => "decimal"
  | .hexadecimal => "hexadecimal"
  | .octal => "octal"
  | .binary => "binary"
  | .imaginary => "imaginary"

/-- Why an escape in a text stands for no character: it lacks digits, its number is not that of a
character, it lacks a name, or it has a name that no character can have. -/
inductive EscapeFault
  | truncated (letter : Char) (width : Nat)
  | noCharacter
  | noName
  | unknownName
  deriving DecidableEq, Repr

def EscapeFault.message : EscapeFault → String
  | .truncated letter width =>
    "truncated \\" ++ letter.toString ++ "".pushn 'X' width ++ " escape"
  | .noCharacter => "illegal Unicode character"
  | .noName => "malformed \\N character escape"
  | .unknownName => "unknown Unicode character name"

/-- Why an expression has no value: an element of a set, or a key of a dictionary, is a set or a
dictionary itself, or a dictionary is spread out where a key is needed. -/
inductive ValueFault
  | unhashable (type : String)
  | noKey
  deriving DecidableEq, Repr

def ValueFault.message : ValueFault → String
  | .unhashable type => s!"unhashable type: '{type}'"
  | .noKey => "malformed node or string: None"

inductive Fault
  | unmatched (closing : Char)
  | mismatched (closing opening : Char) (line : Option Nat)
  | neverClosed (opening : Char)
  | tooDeep
  | unterminated (tripled : Bool) (line : Nat)
  | badNumber (kind : NumberKind)
  | badDigit (digit : Char) (kind : NumberKind)
  | leadingZeros
  | badCharacter (c : Char)
  | badContinuation
  | tooManyDigits (count : Nat)
  | badEscape (first last : Nat) (cause : EscapeFault)
  | badByteEscape (position : Nat)
  | notAByte
  | mixedBytes
  | invalid
  | indented
  | forgottenComma
  | missingElse
  | missingParentheses (name : String)
  | assigned
  | assignedTo (kind : String)
  | namedTo (kind : String)
  | target (kind : String)
  | argumentName (name : String)
  | argumentExpression
  | bareStar
  | missingDefault
  | starred
  | doubleStarred
  | starredValue
  | missingValue
  | missingColon
  | unpackedElement
  | unpackedEntry
  | bareElements
  | bareGenerator
  | argumentOrder (unpacked : Bool)
  | unpackedArguments
  | noValue (cause : ValueFault)
  deriving DecidableEq, Repr

/-- The number of a character in upper-case hexadecimal digits. -/
def characterNumber (c : Char) : String :=
  String.ofList ((Text.hexDigits 4 c.toNat).map Char.toUpper)

def Fault.message : Fault → String
  | .unmatched closing => s!"unmatched '{closing}'"
  | .mismatched closing opening line =>
    s!"closing parenthesis '{closing}' does not match opening parenthesis '{opening}'" ++
      (line.map fun n => s!" on line {n}").getD ""
  | .neverClosed opening => s!"'{opening}' was never closed"
  | .tooDeep => "too many nested parentheses"
  | .unterminated tripled line =>
    (if tripled then "unterminated triple-quoted string literal" else "unterminated string literal")
      ++ s!" (detected at line {line})"
  | .badNumber kind => s!"invalid {kind.name} literal"
  | .badDigit digit kind => s!"invalid digit '{digit}' in {kind.name} literal"
  | .leadingZeros => "leading zeros in decimal integer literals are not permitted; " ++
      "use an 0o prefix for octal integers"
  | .badCharacter c =>
    if Text.isPrintable c then s!"invalid character '{c}' (U+{characterNumber c})"
    else s!"invalid non-printable character U+{characterNumber c}"
  | .badContinuation => "unexpected character after line continuation character"
  | .tooManyDigits count => Text.tooManyDigitsMessage count ++
      " - Consider hexadecimal for huge integer literals to avoid decimal conversion limits."
  | .badEscape first last cause =>
    s!"(unicode error) 'unicodeescape' codec can't decode bytes in position {first}-{last}: " ++
      cause.message
  | .badByteEscape position => s!"(value error) invalid \\x escape at position {position}"
  | .notAByte => "bytes can only contain ASCII literal characters"
  | .mixedBytes => "cannot mix bytes and nonbytes literals"
  | .invalid => "invalid syntax"
  | .indented => "unexpected indent"
  | .forgottenComma => "invalid syntax. Perhaps you forgot a comma?"
  | .missingElse => "expected 'else' after 'if' expression"
  | .missingParentheses name =>
    s!"Missing parentheses in call to '{name}'. Did you mean {name}(...)?"
  | .assigned => "invalid syntax. Maybe you meant '==' or ':=' instead of '='?"
  | .assignedTo kind => s!"cannot assign to {kind} here. Maybe you meant '==' instead of '='?"
  | .namedTo kind => s!"cannot use assignment expressions with {kind}"
  | .target kind => s!"cannot assign to {kind}"
  | .argumentName name => s!"cannot assign to {name}"
  | .argumentExpression =>
    "expression cannot contain assignment, perhaps you meant \"==\"?"
  | .bareStar => "Invalid star expression"
  | .missingDefault => "expected default value expression"
  | .starred => "cannot use starred expression here"
  | .doubleStarred => "cannot use double starred expression here"
  | .starredValue => "cannot use a starred expression in a dictionary value"
  | .missingValue => "expression expected after dictionary key and ':'"
  | .missingColon => "':' expected after dictionary key"
  | .unpackedElement => "iterable unpacking cannot be used in comprehension"
  | .unpackedEntry => "dict unpacking cannot be used in dict comprehension"
  | .bareElements => "did you forget parentheses around the comprehension target?"
  | .bareGenerator => "Generator expression must be parenthesized"
  | .argumentOrder unpacked =>
    if unpacked then "positional argument follows keyword argument unpacking"
    else "positional argument follows keyword argument"
  | .noValue cause => cause.message
  | .unpackedArguments => "iterable argument unpacking follows keyword argument unpacking"

end SuiteAtlas.Console.Expression
