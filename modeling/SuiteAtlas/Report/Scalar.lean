import SuiteAtlas.Json.Reader

/-!
Lenient reading of scalar fields.

A report may write a flag as a number or a word, and a number as a text. Each function reads the
forms of one kind of field and refuses all others.
-/

namespace SuiteAtlas.Report

open Number (Binary64)
open Text (isAsciiDigit splitSign)

def text? : Json → Option String
  | .string text => some text
  | _ => none

def trueWords : List String := ["1", "true", "t", "yes", "y", "on"]
def falseWords : List String := ["0", "false", "f", "no", "n", "off"]

def flagOfInt? (n : Int) : Option Bool :=
  if n = 1 then some true else if n = 0 then some false else none

/-- A flag is a truth value, the number 0 or 1, or one of the words, in any case. -/
def flag? : Json → Option Bool
  | .bool value => some value
  | .int n => flagOfInt? n
  | .float x => x.toInt?.bind flagOfInt?
  | .string text =>
    let word := String.ofList (text.toList.map Char.toLower)
    if trueWords.contains word then some true
    else if falseWords.contains word then some false
    else none
  | _ => none

/-- An integer is a number without a fraction, which a floating-point number may be only below
`2 ^ 63`, a truth value, or a text that writes one. -/
def int? : Json → Option Int
  | .bool value => some (if value then 1 else 0)
  | .int n => some n
  | .float x => x.toInt?.filter fun n => n.natAbs < Nat.pow 2 63
  | .string text => Text.integer? text.toList
  | _ => none

def specialNumber? (word : String) (negative : Bool) : Option Binary64 :=
  if word == "inf" || word == "infinity" then some (.infinite negative)
  else if word == "nan" then some .nan
  else none

/-- The number that a text writes in decimal notation, with digits before or after the point. -/
def decimal? (text : List Char) : Option Binary64 := do
  let (negative, unsigned) := splitSign text
  let word := String.ofList (unsigned.map Char.toLower)
  match specialNumber? word negative with
  | some x => some x
  | none =>
    let whole := unsigned.takeWhile isAsciiDigit
    let rest := unsigned.dropWhile isAsciiDigit
    let (fraction, rest) :=
      match rest with
      | '.' :: rest => (rest.takeWhile isAsciiDigit, rest.dropWhile isAsciiDigit)
      | rest => ([], rest)
    if whole.isEmpty && fraction.isEmpty then none
    else
      match rest with
      | [] => some (Json.Numeral.toBinary64 ⟨negative, whole, fraction, none⟩)
      | rest =>
        match Json.exponent? rest with
        | some (exponent, []) =>
          some (Json.Numeral.toBinary64 ⟨negative, whole, fraction, some exponent⟩)
        | _ => none

/-- The number that a text writes, with blanks around it or with underscores inside it. -/
def numberOfText? (text : List Char) : Option Binary64 :=
  (decimal? (Text.trimNumber text)).or
    (if Text.isGrouped text then decimal? (text.filter (· != '_')) else none)

/-- A number is a floating-point number, an integer in their reach, a truth value, or a text that
writes one. -/
def number? : Json → Option Binary64
  | .float x => some x
  | .int n =>
    match Binary64.ofInt n with
    | .infinite _ => none
    | x => some x
  | .bool value => some (Binary64.ofInt (if value then 1 else 0))
  | .string text => numberOfText? text.toList
  | _ => none

end SuiteAtlas.Report
