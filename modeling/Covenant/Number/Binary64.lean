import Covenant.Number.Decimal

/-!
# Binary floating-point numbers

The numbers of the IEEE 754 format with 64 bits, as exact mathematical objects:
a finite number is `± mantissa * 2 ^ exponent`.  Decimals and integers are
rounded to the nearest such number, a half to the even neighbour.
-/

namespace Covenant

/-- A finite number is kept with the largest mantissa below `2 ^ 53` that its exponent,
at least -1074, admits. -/
inductive Binary64 where
  | nan
  | infinite (negative : Bool)
  | finite (negative : Bool) (mantissa : Nat) (exponent : Int)
deriving DecidableEq

namespace Binary64

def leastExponent : Int := -1074

def greatestExponent : Int := 971

def zero (negative : Bool) : Binary64 := .finite negative 0 leastExponent

/-- The exponent of the leading bit of a positive quotient. -/
def leadingExponent (numerator denominator : Nat) : Int :=
  let guess : Int := (numerator.log2 : Int) - denominator.log2
  let reached :=
    if 0 ≤ guess then denominator * Nat.pow 2 guess.toNat ≤ numerator
    else denominator ≤ numerator * Nat.pow 2 (-guess).toNat
  if reached then guess else guess - 1

def ofQuotient (negative : Bool) (numerator denominator : Nat) : Binary64 :=
  if numerator = 0 then zero negative
  else
    let exponent := max leastExponent (leadingExponent numerator denominator - 52)
    let mantissa :=
      if 0 ≤ exponent then roundHalfEven numerator (denominator * Nat.pow 2 exponent.toNat)
      else roundHalfEven (numerator * Nat.pow 2 (-exponent).toNat) denominator
    let (mantissa, exponent) :=
      if mantissa = Nat.pow 2 53 then (Nat.pow 2 52, exponent + 1) else (mantissa, exponent)
    if greatestExponent < exponent then .infinite negative
    else .finite negative mantissa exponent

/-- The nearest number to a decimal.  Magnitudes far outside the range are settled by
their number of digits. -/
def ofDecimal (number : Decimal) : Binary64 :=
  let order := number.exponent + Decimal.digitCount number.coefficient
  if number.coefficient = 0 then zero number.negative
  else if 310 < order then .infinite number.negative
  else if order < -330 then zero number.negative
  else if 0 ≤ number.exponent then
    ofQuotient number.negative (number.coefficient * Nat.pow 10 number.exponent.toNat) 1
  else ofQuotient number.negative number.coefficient (Nat.pow 10 (-number.exponent).toNat)

/-- The nearest number to an integer; none beyond the range. -/
def ofInt? (n : Int) : Option Binary64 :=
  match ofQuotient (n < 0) n.natAbs 1 with
  | .infinite _ => none
  | number => some number

/-- A finite number in units of the least positive one. -/
def scaled (negative : Bool) (mantissa : Nat) (exponent : Int) : Int :=
  let magnitude : Int := mantissa * Nat.pow 2 (exponent - leastExponent).toNat
  if negative then -magnitude else magnitude

/-- The order of the numbers; nothing compares with nan. -/
def lt : Binary64 → Binary64 → Bool
  | .nan, _ | _, .nan => false
  | .infinite negative, .infinite negative' => negative && !negative'
  | .infinite negative, .finite .. => negative
  | .finite .., .infinite negative => !negative
  | .finite s m e, .finite s' m' e' => scaled s m e < scaled s' m' e'

/-- Numerical equality: the two zeros are equal, and nan differs from itself. -/
def eq : Binary64 → Binary64 → Bool
  | .nan, _ | _, .nan => false
  | .infinite negative, .infinite negative' => negative == negative'
  | .finite s m e, .finite s' m' e' => scaled s m e == scaled s' m' e'
  | _, _ => false

def le (x y : Binary64) : Bool := lt x y || eq x y

def isZero : Binary64 → Bool
  | .finite _ mantissa _ => mantissa == 0
  | _ => false

def truncate (negative : Bool) (mantissa : Nat) (exponent : Int) : Int :=
  let magnitude : Int :=
    if 0 ≤ exponent then mantissa * Nat.pow 2 exponent.toNat else mantissa / Nat.pow 2 (-exponent).toNat
  if negative then -magnitude else magnitude

end Binary64

end Covenant
