import SuiteAtlas.Number.Binary64

/-!
Decimal numbers and their layout on paper.

A `Decimal` is `digits · 10 ^ power`. `Layout` records the choices of a written form; a number
whose leading digit stands for a power of ten in the positional range is written without an
exponent, any other with one of at least two digits.
-/

namespace SuiteAtlas.Number

structure Decimal where
  digits : Nat
  power : Int
  deriving DecidableEq, Repr

/-- How decimals are laid out: from which power of ten of the leading digit on and below which
one they are positional, and whether a whole positional number keeps a point and a zero. -/
structure Layout where
  positionalFrom : Int
  positionalBelow : Int
  keepsPoint : Bool

def digitsOf (n : Nat) : List Char :=
  Nat.toDigits 10 n

def digitCount (n : Nat) : Nat :=
  (digitsOf n).length

/-- The digits of `n` without the zeros at the end. -/
def significantDigits (n : Nat) : List Char :=
  ((digitsOf n).reverse.dropWhile (· == '0')).reverse

def writeExponent (power : Int) : List Char :=
  let digits := digitsOf power.natAbs
  let sign := if power < 0 then '-' else '+'
  'e' :: sign :: (List.replicate (2 - digits.length) '0' ++ digits)

/-- A positive decimal in the given layout. -/
def Layout.write (layout : Layout) (d : Decimal) : List Char :=
  let digits := significantDigits d.digits
  let leading : Int := d.power + digitCount d.digits - 1
  if layout.positionalFrom ≤ leading && leading < layout.positionalBelow then
    if leading < 0 then
      '0' :: '.' :: (List.replicate (-leading - 1).toNat '0' ++ digits)
    else
      let places := leading.toNat + 1
      if digits.length ≤ places then
        digits ++ List.replicate (places - digits.length) '0' ++
          (if layout.keepsPoint then ['.', '0'] else [])
      else digits.take places ++ '.' :: digits.drop places
  else
    let fraction := digits.drop 1
    digits.take 1 ++ (if fraction.isEmpty then [] else '.' :: fraction) ++ writeExponent leading

/-- A number in the given layout, where `decimal` chooses the digits of a positive one. -/
def Layout.writeNumber (layout : Layout) (decimal : Nat → Int → Decimal) : Binary64 → List Char
  | .nan => "nan".toList
  | .infinite negative => (if negative then "-inf" else "inf").toList
  | .finite negative mantissa exponent =>
    let sign := if negative then ['-'] else []
    if mantissa = 0 then sign ++ '0' :: (if layout.keepsPoint then ['.', '0'] else [])
    else sign ++ layout.write (decimal mantissa exponent)

end SuiteAtlas.Number
