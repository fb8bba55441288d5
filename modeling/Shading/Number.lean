import Shading.Text.Character

/-!
Numbers as they are written.

A numeral is digits, and perhaps a point and further digits. All digits are
accumulated as if there were no point, and the result is divided by a power of
ten. Every step rounds to a double, so long numerals may reach infinity, and a
long fraction may divide infinity by infinity.

Of all decimals that lie in the interval of reals rounding to a double, the
text of the double shows one with the fewest digits, of those the nearest, and
of two equally near the larger. The search is exact: value and interval are
integers over a common denominator, and each grid of decimals is tried through
the value's two neighbours on it. The layout never uses an exponent.
-/

namespace Shading.Number

/-! ### The value of a numeral -/

/-- Square-and-multiply: the product of `result` with `base ^ count`, in the order
of multiplications that the binary digits of `count` give, lowest digit first. -/
def powerLoop (result base : Float) (count : Nat) : Float :=
  let result := if count % 2 = 1 then result * base else result
  if count / 2 = 0 then result else powerLoop result (base * base) (count / 2)
termination_by count
decreasing_by omega

/-- A power of ten as repeated squaring rounds it; below zero the reciprocal. -/
def powerOfTen (exponent : Int32) : Float :=
  let power := powerLoop 1 10 exponent.toInt.natAbs
  if exponent < 0 then 1 / power else power

def pushDigit (value : Float) (digit : Char) : Float :=
  value * 10 + Float.ofNat (Character.digitValue digit)

/-- The value of a numeral with these digits before and after its point. The count
of the digits behind the point wraps around. -/
def numeralValue (whole fraction : List Char) : Float :=
  (whole ++ fraction).foldl pushDigit 0 / powerOfTen (Int32.ofNat fraction.length)

/-! ### Doubles and decimals -/

/-- What a double stands for. A finite magnitude is `significand * 2 ^ exponent`;
`tight` marks the powers of two, whose lower neighbour is at half the distance. -/
inductive Double where
  | notANumber
  | infinite (negative : Bool)
  | finite (negative : Bool) (significand : Nat) (exponent : Int) (tight : Bool)
deriving DecidableEq, Repr

/-- A decimal magnitude: `digits * 10 ^ exponent`. -/
structure Decimal where
  digits : Nat
  exponent : Int
deriving DecidableEq, Repr

/-! ### Reading the fields of a double -/

/-- The meaning of the sign, exponent and fraction fields of a double. -/
def Double.ofFields (negative : Bool) (scale fraction : Nat) : Double :=
  if scale = 2047 then
    if fraction = 0 then .infinite negative else .notANumber
  else if scale = 0 then
    .finite negative fraction (-1074) false
  else
    .finite negative (Nat.pow 2 52 + fraction) ((scale : Int) - 1075) (fraction == 0 && scale != 1)

def Double.ofFloat (value : Float) : Double :=
  let bits := value.toBits.toNat
  .ofFields (bits / Nat.pow 2 63 % 2 == 1) (bits / Nat.pow 2 52 % Nat.pow 2 11)
    (bits % Nat.pow 2 52)

/-! ### Search over decimal grids -/

/-- A positive quotient of naturals that stands for the value, with the two ends
of its rounding interval over the same denominator. -/
structure Interval where
  low : Nat
  value : Nat
  high : Nat
  denominator : Nat
  closed : Bool

/-- The rounding interval of `significand * 2 ^ exponent`. Its ends belong to it
exactly when the significand is even, as halves are rounded to even. -/
def Interval.around (significand : Nat) (exponent : Int) (tight : Bool) : Interval :=
  let unit := Nat.pow 2 (exponent - 2).toNat
  { low := (4 * significand - if tight then 1 else 2) * unit
    value := 4 * significand * unit
    high := (4 * significand + 2) * unit
    denominator := Nat.pow 2 (2 - exponent).toNat
    closed := significand % 2 == 0 }

def Interval.scaled (interval : Interval) (exponent : Int) : Interval :=
  let up := Nat.pow 10 (-exponent).toNat
  { interval with
    low := interval.low * up
    value := interval.value * up
    high := interval.high * up
    denominator := interval.denominator * Nat.pow 10 exponent.toNat }

def Interval.holds (interval : Interval) (point : Nat) : Bool :=
  let position := point * interval.denominator
  if interval.closed then
    interval.low ≤ position && position ≤ interval.high
  else
    interval.low < position && position < interval.high

/-- The whole number of the interval that is nearest to its value, if the
interval holds one; of two equally near, the larger. -/
def Interval.nearestWhole (interval : Interval) : Option Nat :=
  let below := interval.value / interval.denominator
  let above := below + 1
  match interval.holds below, interval.holds above with
  | true, true =>
    if 2 * interval.value < (below + above) * interval.denominator then some below else some above
  | true, false => some below
  | false, true => some above
  | false, false => none

/-- An exponent whose power of ten exceeds the value, and by less than three places. -/
def gridStart (significand : Nat) (exponent : Int) : Int :=
  (exponent + (Nat.log2 significand : Int) + 1) * 30103 / 100000 + 1

/-- The grids that are tried: seventeen digits always suffice, and the first
grids may lie above the value. -/
def gridCount : Nat := 22

/-- The nearest point of the coarsest decimal grid that meets the rounding
interval of a positive double. -/
def shortest (significand : Nat) (exponent : Int) (tight : Bool) : Decimal :=
  let interval := Interval.around significand exponent tight
  let start := gridStart significand exponent
  let found := (List.range gridCount).findSome? fun (step : Nat) =>
    let grid := start - (step : Int)
    (interval.scaled grid).nearestWhole.map fun digits => (⟨digits, grid⟩ : Decimal)
  found.getD ⟨0, 0⟩

/-! ### Layout -/

/-- The digits of a decimal with a point among them where one is needed: zeros
fill the places that the digits do not reach, and a fraction drops its final zeros. -/
def Decimal.positional (decimal : Decimal) : List Char :=
  let written := Nat.toDigits 10 decimal.digits
  if 0 ≤ decimal.exponent then
    written ++ List.replicate decimal.exponent.toNat '0'
  else
    let places := (-decimal.exponent).toNat
    let padded := List.replicate (places + 1 - written.length) '0' ++ written
    let whole := padded.take (padded.length - places)
    let fraction := (padded.drop (padded.length - places)).reverse.dropWhile (· == '0')
    if fraction.isEmpty then whole else whole ++ '.' :: fraction.reverse

/-- The text of a magnitude; zero has a digit of its own. -/
def magnitudeText (significand : Nat) (exponent : Int) (tight : Bool) : List Char :=
  if significand = 0 then ['0'] else (shortest significand exponent tight).positional

/-- The text of a double: a sign also before zero, and names for the values that
are not finite. -/
def Double.text : Double → String
  | .notANumber => "NaN"
  | .infinite negative => if negative then "-inf" else "inf"
  | .finite negative significand exponent tight =>
    (if negative then "-" else "") ++ String.ofList (magnitudeText significand exponent tight)

/-- The shortest decimal text that reads back as the same double. -/
def text (value : Float) : String := (Double.ofFloat value).text

end Shading.Number
