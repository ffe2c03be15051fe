import SuiteAtlas.Number.Decimal

/-!
The fewest decimal digits that read back, and a fixed number of significant digits.

Every positive number owns an interval of reals that round to it; its ends belong to it when the
mantissa is even. The shortest decimal is sought on the grids of 1, 2, … 17 significant digits:
the first grid with a point in the interval wins, and of two such points the nearer one.
-/

namespace SuiteAtlas.Number

/-- The power of ten of the leading decimal digit of a positive quotient. -/
def leadingPower (num den : Nat) : Int :=
  let guess : Int := (digitCount num : Int) - digitCount den
  let (up, down) := scale 10 guess
  if num * down < den * up then guess - 1 else guess

/-- A positive binary number in quarters of its last place, against a decimal grid: the point `c`
of the grid is `c * grid`, and `n` quarters are `n * quarter`. -/
structure Ruler where
  grid : Nat
  quarter : Nat

def Ruler.of (exponent power : Int) : Ruler :=
  let (twoUp, twoDown) := scale 2 (exponent - 2)
  let (tenUp, tenDown) := scale 10 power
  ⟨tenUp * twoDown, twoUp * tenDown⟩

/-- How many quarters below a number its interval begins; a power of two has a nearer neighbour
below than above. -/
def quartersBelow (mantissa : Nat) (exponent : Int) : Nat :=
  if mantissa = Nat.pow 2 (Binary64.mantissaBits - 1) && Binary64.leastExponent < exponent then 1
  else 2

/-- Whether the point `c` of the grid reads back as the number. -/
def readsBack (r : Ruler) (mantissa : Nat) (exponent : Int) (c : Nat) : Bool :=
  let low := (4 * mantissa - quartersBelow mantissa exponent) * r.quarter
  let high := (4 * mantissa + 2) * r.quarter
  let point := c * r.grid
  if mantissa % 2 = 0 then low ≤ point && point ≤ high else low < point && point < high

/-- The point nearest to the number among its two neighbours on the grid that read back; of two
equally near ones the even one. -/
def nearestOnGrid? (r : Ruler) (mantissa : Nat) (exponent : Int) : Option Nat :=
  let value := 4 * mantissa * r.quarter
  let below := value / r.grid
  let above := below + 1
  match readsBack r mantissa exponent below, readsBack r mantissa exponent above with
  | true, true =>
    let left := value - below * r.grid
    let right := above * r.grid - value
    some (if left < right || (left == right && below % 2 == 0) then below else above)
  | true, false => some below
  | false, true => some above
  | false, false => none

/-- The first of the grids with `count`, `count + 1`, … digits that holds a point that reads back,
among `fuel` grids. -/
def shortestFrom (mantissa : Nat) (exponent : Int) (leading : Int) (count : Nat) : Nat → Decimal
  | 0 => ⟨0, 0⟩
  | fuel + 1 =>
    let power := leading + 1 - count
    match nearestOnGrid? (Ruler.of exponent power) mantissa exponent with
    | some digits => ⟨digits, power⟩
    | none => shortestFrom mantissa exponent leading (count + 1) fuel

/-- The shortest decimal that reads back as `mantissa · 2 ^ exponent`; 17 digits always do. -/
def shortest (mantissa : Nat) (exponent : Int) : Decimal :=
  let (up, down) := scale 2 exponent
  shortestFrom mantissa exponent (leadingPower (mantissa * up) down) 1 17

/-- `mantissa · 2 ^ exponent` rounded to `count` significant digits, a half to even. -/
def significant (count : Nat) (mantissa : Nat) (exponent : Int) : Decimal :=
  let (up, down) := scale 2 exponent
  let power := leadingPower (mantissa * up) down + 1 - count
  let (tenUp, tenDown) := scale 10 power
  ⟨roundEven (mantissa * up * tenDown) (down * tenUp), power⟩

/-- Numbers in reports: positional from four zeros after the point up to sixteen digits. -/
def reportLayout : Layout := ⟨-4, 16, true⟩

/-- Numbers in tables: six significant digits, positional up to that many. -/
def tableDigits : Nat := 6

def tableLayout : Layout := ⟨-4, tableDigits, false⟩

def Binary64.toText (x : Binary64) : List Char :=
  reportLayout.writeNumber shortest x

def Binary64.toTableText (x : Binary64) : List Char :=
  tableLayout.writeNumber (significant tableDigits) x

end SuiteAtlas.Number
