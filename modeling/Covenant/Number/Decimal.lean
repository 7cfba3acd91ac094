import Covenant.Text.Digit

/-!
# Decimal numerals

A decimal is a sign, a coefficient and a power of ten, kept exactly as written:
`-12.50` has coefficient 1250 and exponent -2.  `Decimal.ofNumeral?` reads plain
numerals with an optional fraction and an optional exponent.
-/

namespace Covenant

/-- Quotient of natural numbers, rounded to the nearest, a half to the even neighbour. -/
def roundHalfEven (numerator denominator : Nat) : Nat :=
  let quotient := numerator / denominator
  let twice := 2 * (numerator % denominator)
  if twice < denominator then quotient
  else if denominator < twice then quotient + 1
  else if quotient % 2 = 0 then quotient else quotient + 1

/-- The number `± coefficient * 10 ^ exponent`. -/
structure Decimal where
  negative : Bool
  coefficient : Nat
  exponent : Int
deriving DecidableEq

namespace Decimal

/-- The number of decimal digits of a coefficient; zero has one. -/
def digitCount (n : Nat) : Nat := (Text.ofNat n).length

def splitSign : Text → Bool × Text
  | '-' :: rest => (true, rest)
  | '+' :: rest => (false, rest)
  | rest => (false, rest)

/-- The exponent part of a numeral: nothing at all, or `e` and a signed number. -/
def exponentOf? : Text → Option Int
  | [] => some 0
  | mark :: rest =>
      if mark = 'e' || mark = 'E' then
        let (negative, digits) := splitSign rest
        if !digits.isEmpty && digits.all isAsciiDigit then
          let magnitude : Int := Text.digitsToNat digits
          some (if negative then -magnitude else magnitude)
        else none
      else none

/-- An optional fraction: its digits, and what follows them. -/
def splitFraction : Text → Text × Text
  | '.' :: rest => rest.span isAsciiDigit
  | rest => ([], rest)

/-- Reads a numeral: sign, digits with an optional point among or around them, exponent. -/
def ofNumeral? (text : Text) : Option Decimal :=
  let (negative, unsigned) := splitSign text
  let (whole, rest) := unsigned.span isAsciiDigit
  let (fraction, rest) := splitFraction rest
  if whole.isEmpty && fraction.isEmpty then none
  else (exponentOf? rest).map fun exponent =>
    ⟨negative, Text.digitsToNat (whole ++ fraction), exponent - fraction.length⟩

/-- The number in units of `10 ^ -places`, a half rounded to the even neighbour. -/
def roundedUnits (places : Nat) (number : Decimal) : Nat :=
  let shift := number.exponent + places
  if number.coefficient = 0 then 0
  else if 0 ≤ shift then number.coefficient * Nat.pow 10 shift.toNat
  else
    let dropped := (-shift).toNat
    if digitCount number.coefficient < dropped then 0
    else roundHalfEven number.coefficient (Nat.pow 10 dropped)

end Decimal

end Covenant
