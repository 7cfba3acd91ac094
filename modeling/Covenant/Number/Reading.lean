import Covenant.Number.Binary64

/-!
# Numbers written in text

Numbers may stand in white space, use the digits of any script and, for
floating-point numbers and integers, separate digits by single underscores.
-/

namespace Covenant

/-- The white space that may stand around a numeral.  An information separator may not. -/
def isNumeralSpace (c : Char) : Bool := c = ' ' || ('\t' ≤ c && c ≤ '\r')

/-- The text with ASCII digits, after the white space in front of it. -/
def numeralOf (text : Text) : Text := (Text.normalizeDigits text).dropWhile isNumeralSpace

/-- The text without underscores, each of which must stand between two digits. -/
def dropUnderscores? : Option Char → Text → Option Text
  | before, [] => if before = some '_' then none else some []
  | before, c :: cs =>
      if c = '_' then
        if before.any isAsciiDigit then dropUnderscores? (some c) cs else none
      else if before = some '_' && !isAsciiDigit c then none
      else (dropUnderscores? (some c) cs).map (c :: ·)

/-- The number named by `inf`, `infinity` or `nan`, in any letter case. -/
def Binary64.ofName? (text : Text) : Option Binary64 :=
  let (negative, name) := Decimal.splitSign text
  let name := name.map Char.toLower
  if name = "inf" || name = "infinity" then some (.infinite negative)
  else if name = "nan" then some .nan
  else none

def Binary64.ofText? (text : Text) : Option Binary64 := do
  let numeral := (numeralOf text).reverse.dropWhile isNumeralSpace
  let numeral ← dropUnderscores? none numeral.reverse
  match Binary64.ofName? numeral with
  | some number => some number
  | none => (Decimal.ofNumeral? numeral).map Binary64.ofDecimal

inductive IntegerReadError where
  | notANumeral
  | tooManyDigits (count : Nat)
deriving DecidableEq

def maxIntegerDigits : Nat := 4300

/-- Reads an integer: a sign and digits, single underscores between digits, white space around.
The digits are counted before anything that follows them is looked at. -/
def readInteger (text : Text) : Except IntegerReadError Int :=
  let (negative, unsigned) := Decimal.splitSign (numeralOf text)
  let (numeral, rest) := unsigned.span fun c => isAsciiDigit c || c = '_'
  match dropUnderscores? none numeral with
  | none | some [] => .error .notANumeral
  | some digits =>
      if maxIntegerDigits < digits.length then .error (.tooManyDigits digits.length)
      else if !rest.all isNumeralSpace then .error .notANumeral
      else
        let magnitude : Int := Text.digitsToNat digits
        .ok (if negative then -magnitude else magnitude)

/-- A decimal amount as a text may give it.  A payload of zero is not written. -/
inductive Amount where
  | finite (number : Decimal)
  | infinite (negative : Bool)
  | notANumber (negative signalling : Bool) (payload : Nat)
deriving DecidableEq

namespace Amount

def greatestExponent : Int := 999999999999999999

/-- The least exponent of the last digit of an amount. -/
def leastExponent : Int := -1999999999999999997

/-- An amount is refused when its exponent leaves the range. -/
def ofDecimal? (number : Decimal) : Option Amount :=
  let adjusted :=
    if number.coefficient = 0 then number.exponent
    else number.exponent + Decimal.digitCount number.coefficient - 1
  if greatestExponent < adjusted || number.exponent < leastExponent then none
  else some (.finite number)

/-- The number after `nan`: digits or nothing. -/
def payload? (digits : Text) : Option Nat :=
  if digits.all isAsciiDigit then some (Text.digitsToNat digits) else none

def ofName? (text : Text) : Option Amount :=
  let (negative, name) := Decimal.splitSign text
  match name.map Char.toLower with
  | 'n' :: 'a' :: 'n' :: digits => (payload? digits).map (.notANumber negative false)
  | 's' :: 'n' :: 'a' :: 'n' :: digits => (payload? digits).map (.notANumber negative true)
  | name => if name = "inf" || name = "infinity" then some (.infinite negative) else none

/-- Reads an amount; underscores are ignored wherever they stand. -/
def ofText? (text : Text) : Option Amount :=
  let numeral := Text.removeChar '_' (Text.normalizeDigits (Text.trim text))
  match ofName? numeral with
  | some amount => some amount
  | none => (Decimal.ofNumeral? numeral).bind ofDecimal?

end Amount

end Covenant
