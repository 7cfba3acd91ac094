import Covenant.Fault
import Covenant.Text.Group

/-!
# Amounts of money

An amount is written with the euro sign, a point between groups of three digits
and a comma before the two decimals, as in `€ 1.234,56`.  A half cent goes to
the even neighbour.  Text that is no number is left as it is, and an amount of
more digits than can be written is a fault.
-/

namespace Covenant

namespace Amount

/-- Whole units in groups of three, a comma and two places. -/
def ofCents (cents : Nat) : Text :=
  Text.groupRight '.' 3 (Text.ofNat (cents / 100)) ++ ',' :: Text.ofNatPadded 2 (cents % 100)

def sign (negative : Bool) : Text := if negative then ['-'] else []

/-- The most digits that an amount in cents may have. -/
def greatestDigitCount : Int := 1000000000000000000

/-- The number of digits of an amount in cents, when nothing of it is rounded off. -/
def centDigitCount (number : Decimal) : Int :=
  if number.coefficient = 0 then 1
  else Decimal.digitCount number.coefficient + number.exponent + 2

def toText : Amount → Outcome Text
  | .finite number =>
      if greatestDigitCount < centDigitCount number then .error .amountTooLarge
      else if greatestTextLength < centDigitCount number then .error .textTooLong
      else .ok (sign number.negative ++ ofCents (number.roundedUnits 2))
  | .infinite negative => .ok (sign negative ++ "Infinity")
  | .notANumber negative signalling payload =>
      .ok (sign negative ++ (if signalling then "sNaN" else "NaN") ++
        (if payload = 0 then [] else Text.ofNat payload))

end Amount

namespace Wording

/-- The amount a value denotes, with the euro sign; nothing for a value that was not given. -/
def amount (value : Value) : Outcome Text :=
  if value.isAbsent then .ok []
  else match Amount.ofText? (Text.removeChar '€' value.plain) with
    | some number => number.toText.map fun text => "€ " ++ text
    | none => .ok value.plain

end Wording

end Covenant
