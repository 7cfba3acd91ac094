import Covenant.Number.Binary64

/-!
# Shortest decimal text of a floating-point number

A number is written with the fewest digits that read back as the same number,
and with the digits nearest to it among those.  The search tries one digit, then
two, and so on; on every decimal grid only the two neighbours of the number can
lie in the interval that reads back as it.
-/

namespace Covenant.Binary64

/-- A positive number and the ends of the interval that rounds to it, as numerators over
a common denominator. -/
structure Rounding where
  low : Nat
  value : Nat
  high : Nat
  denominator : Nat
  endsIncluded : Bool

def rounding (mantissa : Nat) (exponent : Int) : Rounding :=
  let unit := Nat.pow 2 exponent.toNat
  let below := if mantissa = Nat.pow 2 52 && leastExponent < exponent then 1 else 2
  { low := (4 * mantissa - below) * unit
    value := 4 * mantissa * unit
    high := (4 * mantissa + 2) * unit
    denominator := 4 * Nat.pow 2 (-exponent).toNat
    endsIncluded := mantissa % 2 == 0 }

/-- The exponent of the leading decimal digit of a positive quotient. -/
def leadingPower (numerator denominator : Nat) : Int :=
  if denominator ≤ numerator then (Decimal.digitCount (numerator / denominator) : Int) - 1
  else
    let gap := Decimal.digitCount denominator - Decimal.digitCount numerator
    if denominator ≤ numerator * Nat.pow 10 gap then -(gap : Int) else -(gap : Int) - 1

/-- Numerator and denominator brought to the unit `10 ^ power`. -/
def Rounding.inUnit (r : Rounding) (power : Int) : Rounding :=
  if 0 ≤ power then { r with denominator := r.denominator * Nat.pow 10 power.toNat }
  else
    let factor := Nat.pow 10 (-power).toNat
    { r with low := r.low * factor, value := r.value * factor, high := r.high * factor }

def Rounding.contains (r : Rounding) (candidate : Nat) : Bool :=
  let point := candidate * r.denominator
  if r.endsIncluded then r.low ≤ point && point ≤ r.high else r.low < point && point < r.high

/-- The nearer of the two neighbours on the grid that read back, if any does. -/
def Rounding.nearest? (r : Rounding) : Option Nat :=
  let down := r.value / r.denominator
  match r.contains down, r.contains (down + 1) with
  | false, false => none
  | true, false => some down
  | false, true => some (down + 1)
  | true, true => some (roundHalfEven r.value r.denominator)

/-- The first of the grids with `count`, `count + 1`, … digits that has a number which
reads back. -/
def shortestFrom (r : Rounding) (power : Int) : Nat → Nat → Nat × Int
  | 0, _ => (0, power)
  | fuel + 1, count =>
      let unit := power - count + 1
      match (r.inUnit unit).nearest? with
      | some digits => (digits, unit)
      | none => shortestFrom r power fuel (count + 1)

/-- The digits of a positive number, and the power of ten of the last one. -/
def shortest (mantissa : Nat) (exponent : Int) : Nat × Int :=
  let r := rounding mantissa exponent
  shortestFrom r (leadingPower r.value r.denominator) 20 1

def withoutTrailingZeros (digits : Text) : Text :=
  (digits.reverse.dropWhile (· = '0')).reverse

/-- Plain notation for exponents of the leading digit from -4 to 15, with at least one
digit on both sides of the point. -/
def plainNotation (digits : Text) (leading : Int) : Text :=
  if leading < 0 then
    '0' :: '.' :: List.replicate (-leading - 1).toNat '0' ++ digits
  else
    let whole := leading.toNat + 1
    let before := digits.take whole ++ List.replicate (whole - digits.length) '0'
    let after := digits.drop whole
    before ++ '.' :: (if after.isEmpty then ['0'] else after)

/-- One digit, the others after a point, and a signed exponent of at least two digits. -/
def exponentNotation (digits : Text) (leading : Int) : Text :=
  let mantissa := match digits with
    | d :: e :: rest => d :: '.' :: e :: rest
    | _ => digits
  mantissa ++ 'e' :: (if leading < 0 then '-' else '+') :: Text.ofNatPadded 2 leading.natAbs

def toText : Binary64 → Text
  | .nan => "nan"
  | .infinite negative => if negative then "-inf" else "inf"
  | .finite negative mantissa exponent =>
      let sign : Text := if negative then ['-'] else []
      if mantissa = 0 then sign ++ "0.0"
      else
        let (digits, unit) := shortest mantissa exponent
        let all := Text.ofNat digits
        let leading := unit + all.length - 1
        let kept := withoutTrailingZeros all
        sign ++ if -4 ≤ leading && leading < 16 then plainNotation kept leading
          else exponentNotation kept leading

end Covenant.Binary64
