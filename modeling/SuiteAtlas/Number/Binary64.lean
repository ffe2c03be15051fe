/-!
Binary floating-point numbers of 64 bits, as exact values.

A finite number is `± mantissa · 2 ^ exponent`. The mantissa has at most 53 bits and the exponent
is at least -1074; a number is written with the least exponent that these bounds allow, so equal
numbers of one sign are equal values. Rounding takes the nearest number, and of two equally near
ones the one with the even mantissa.
-/

namespace SuiteAtlas.Number

inductive Binary64
  | finite (negative : Bool) (mantissa : Nat) (exponent : Int)
  | infinite (negative : Bool)
  | nan
  deriving DecidableEq, Repr

/-- `num / den` rounded to the nearest natural number, a half to the even neighbour. -/
def roundEven (num den : Nat) : Nat :=
  let quotient := num / den
  let rest := 2 * (num % den)
  if rest > den || (rest == den && quotient % 2 == 1) then quotient + 1 else quotient

/-- A positive scale `base ^ power` as a factor of the numerator and one of the denominator. -/
def scale (base : Nat) (power : Int) : Nat × Nat :=
  (base.pow power.toNat, base.pow (-power).toNat)

namespace Binary64

def mantissaBits : Nat := 53
def leastExponent : Int := -1074
def greatestExponent : Int := 971

def zero (negative : Bool) : Binary64 :=
  .finite negative 0 leastExponent

/-- The exponent at which the quotient `num / den` of positive numbers fills the mantissa. -/
def fittingExponent (num den : Nat) : Int :=
  let guess : Int := (Nat.log2 num : Int) - Nat.log2 den - (mantissaBits - 1 : Nat)
  let (up, down) := scale 2 guess
  let fitting := if num * down < den * up * Nat.pow 2 (mantissaBits - 1) then guess - 1 else guess
  max fitting leastExponent

def ofRatio (negative : Bool) (num den : Nat) : Binary64 :=
  if num = 0 then zero negative
  else
    let exponent := fittingExponent num den
    let (up, down) := scale 2 exponent
    let mantissa := roundEven (num * down) (den * up)
    let (mantissa, exponent) :=
      if mantissa = Nat.pow 2 mantissaBits then (Nat.pow 2 (mantissaBits - 1), exponent + 1)
      else (mantissa, exponent)
    if exponent > greatestExponent then .infinite negative
    else .finite negative mantissa exponent

/-- The number nearest to `± digits · 10 ^ power`. Beyond the given magnitudes every decimal is
infinite or zero, so no power of ten larger than the digits need is ever formed. -/
def ofDecimal (negative : Bool) (digits : Nat) (power : Int) : Binary64 :=
  let magnitude : Int := (Nat.toDigits 10 digits).length + power
  if digits = 0 || magnitude < -330 then zero negative
  else if magnitude > 310 then .infinite negative
  else
    let (up, down) := scale 10 power
    ofRatio negative (digits * up) down

def ofInt (n : Int) : Binary64 :=
  ofRatio (n < 0) n.natAbs 1

def isZero : Binary64 → Bool
  | .finite _ mantissa _ => mantissa == 0
  | _ => false

/-- The integer that a finite number without a fraction is. -/
def toInt? : Binary64 → Option Int
  | .finite negative mantissa exponent =>
    let (up, down) := scale 2 exponent
    if mantissa % down = 0 then
      let magnitude : Int := (mantissa * up / down : Nat)
      some (if negative then -magnitude else magnitude)
    else none
  | _ => none

end Binary64

end SuiteAtlas.Number
