import Covenant.Fault
import Covenant.Text.Case

/-!
# Message templates

A template is a text with directives such as `%s` and `%d`, each of which takes
the next argument.  Between the percent sign and the letter there may be flags, a
width and a precision, and a star takes the width or the precision from the
arguments.  All arguments have to be used.
-/

namespace Covenant.MessageTemplate

structure Directive where
  flags : Text := []
  width : Nat := 0
  precision : Option Nat := none
  letter : Char

def Directive.hasFlag (directive : Directive) (flag : Char) : Bool := directive.flags.contains flag

/-- Filled up to the width, on the right with the flag for it. -/
def Directive.pad (directive : Directive) (text : Text) : Text :=
  let fill := List.replicate (directive.width - text.length) ' '
  if directive.hasFlag '-' then text ++ fill else fill ++ text

/-- A sign and digits filled up to the width, with zeros if the flag asks for them. -/
def Directive.padNumber (directive : Directive) (negative : Bool) (mark digits : Text) : Text :=
  let sign : Text :=
    if negative then ['-']
    else if directive.hasFlag '+' then ['+']
    else if directive.hasFlag ' ' then [' ']
    else []
  let size := sign.length + mark.length + digits.length
  if directive.hasFlag '0' && !directive.hasFlag '-' then
    sign ++ mark ++ List.replicate (directive.width - size) '0' ++ digits
  else directive.pad (sign ++ mark ++ digits)

/-- An integer in the given base, with at least as many digits as the precision asks for. -/
def Directive.integer (directive : Directive) (base : Nat) (mark : Text) (number : Int) : Text :=
  let digits := Nat.toDigits base number.natAbs
  let digits := List.replicate (directive.precision.getD 0 - digits.length) '0' ++ digits
  directive.padNumber (number < 0) (if directive.hasFlag '#' then mark else []) digits

/-- Digits with a point in front of the last `places` of them; a point that nothing follows is
written only if `keepPoint` holds. -/
def withPoint (keepPoint : Bool) (places : Nat) (digits : Text) : Text :=
  let whole := digits.length - places
  if places = 0 && !keepPoint then digits else digits.take whole ++ '.' :: digits.drop whole

/-- A magnitude with a fixed number of places after the point. -/
def fixedDigits (keepPoint : Bool) (places numerator denominator : Nat) : Text :=
  let units := roundHalfEven (numerator * Nat.pow 10 places) denominator
  withPoint keepPoint places (Text.ofNatPadded (places + 1) units)

/-- The first digits of a magnitude, one more than `places`, and the exponent of the first. -/
def leadingDigits (places numerator denominator : Nat) : Nat × Int :=
  if numerator = 0 then (0, 0)
  else
    let power := Binary64.leadingPower numerator denominator
    let shift := (places : Int) - power
    let units :=
      if 0 ≤ shift then roundHalfEven (numerator * Nat.pow 10 shift.toNat) denominator
      else roundHalfEven numerator (denominator * Nat.pow 10 (-shift).toNat)
    if Nat.pow 10 (places + 1) ≤ units then (units / 10, power + 1) else (units, power)

def withExponent (digits : Text) (power : Int) : Text :=
  digits ++ 'e' :: (if power < 0 then '-' else '+') :: Text.ofNatPadded 2 power.natAbs

def scientificDigits (keepPoint : Bool) (places numerator denominator : Nat) : Text :=
  let (units, power) := leadingDigits places numerator denominator
  withExponent (withPoint keepPoint places (Text.ofNatPadded (places + 1) units)) power

def withoutFractionZeros (digits : Text) : Text :=
  if digits.contains '.' then
    let kept := (digits.reverse.dropWhile (· = '0'))
    (if kept.head? = some '.' then kept.tail else kept).reverse
  else digits

/-- The shorter of the two notations, with a given number of significant digits.  The point and
the zeros at the end stay if `keepZeros` holds. -/
def generalDigits (keepZeros : Bool) (places numerator denominator : Nat) : Text :=
  let significant := max places 1
  let (units, power) := leadingDigits (significant - 1) numerator denominator
  let trimmed (digits : Text) : Text := if keepZeros then digits else withoutFractionZeros digits
  if -4 ≤ power && power < significant then
    trimmed (fixedDigits keepZeros ((significant : Int) - 1 - power).toNat numerator denominator)
  else
    withExponent
      (trimmed (withPoint keepZeros (significant - 1) (Text.ofNatPadded significant units))) power

def Directive.float (directive : Directive) (number : Binary64) : Text :=
  let letter := directive.letter.toLower
  let capital (text : Text) : Text :=
    if directive.letter = letter then text else Text.upper text
  match number with
  | .nan => directive.padNumber false [] (capital "nan")
  | .infinite negative => directive.padNumber negative [] (capital "inf")
  | .finite negative mantissa exponent =>
      let numerator := mantissa * Nat.pow 2 exponent.toNat
      let denominator := Nat.pow 2 (-exponent).toNat
      let places := directive.precision.getD 6
      let keepPoint := directive.hasFlag '#'
      let digits :=
        if letter = 'f' then fixedDigits keepPoint places numerator denominator
        else if letter = 'e' then scientificDigits keepPoint places numerator denominator
        else generalDigits keepPoint places numerator denominator
      directive.padNumber negative [] (capital digits)

/-- The number an argument is, for a notation of floating-point numbers. -/
def floatArgument : Value → Outcome Binary64
  | .float number => .ok number
  | .int number => match Binary64.ofInt? number with
      | some number => .ok number
      | none => .error .integerTooLarge
  | .bool truth => .ok ((Binary64.ofInt? truth.toInt).getD .nan)
  | _ => .error .templateMismatch

/-- The integer an argument is; a floating-point number only where fractions are dropped. -/
def integerArgument (dropFraction : Bool) : Value → Outcome Int
  | .int number => .ok number
  | .bool truth => .ok truth.toInt
  | .float number => if dropFraction then Value.integerOfFloat number else .error .templateMismatch
  | _ => .error .templateMismatch

/-- The character an argument is, or the one of its code. -/
def characterArgument : Value → Outcome Char
  | .text [c] => .ok c
  | .int code => characterOfCode code
  | .bool truth => characterOfCode truth.toInt
  | _ => .error .templateMismatch
where
  characterOfCode (code : Int) : Outcome Char :=
    if 0 ≤ code && code < 0x110000 then .ok (Char.ofNat code.toNat)
    else .error .characterOutOfRange

/-- Only the first characters, if the directive has a precision. -/
def Directive.cut (directive : Directive) (text : Text) : Text :=
  match directive.precision with
  | some count => text.take count
  | none => text

def escapeBeyondAscii (text : Text) : Text :=
  text.flatMap fun c =>
    let code := c.toNat
    if code < 0x80 then [c]
    else if code < 0x100 then '\\' :: 'x' :: Text.ofNatHex 2 code
    else if code < 0x10000 then '\\' :: 'u' :: Text.ofNatHex 4 code
    else '\\' :: 'U' :: Text.ofNatHex 8 code

/-- The text of an integer, whose precision has a limit of its own. -/
def Directive.integerOf (directive : Directive) (dropFraction : Bool) (base : Nat) (mark : Text)
    (argument : Value) : Outcome Text := do
  let number ← integerArgument dropFraction argument
  if directive.precision.any (2147483645 ≤ ·) then .error .precisionTooLarge
  else .ok (directive.integer base mark number)

/-- The text of one argument, if it can be held whatever the width. -/
def Directive.renderHeld (directive : Directive) (index : Nat) (argument : Value) : Outcome Text :=
  match directive.letter with
  | 's' => .ok (directive.pad (directive.cut argument.plain))
  | 'r' => .ok (directive.pad (directive.cut argument.shown))
  | 'a' => .ok (directive.pad (directive.cut (escapeBeyondAscii argument.shown)))
  | 'd' | 'i' | 'u' => directive.integerOf true 10 [] argument
  | 'x' => directive.integerOf false 16 "0x" argument
  | 'X' => (directive.integerOf false 16 "0x" argument).map Text.upper
  | 'o' => directive.integerOf false 8 "0o" argument
  | 'c' => (characterArgument argument).map fun c => directive.pad [c]
  | 'e' | 'E' | 'f' | 'F' | 'g' | 'G' => (floatArgument argument).map directive.float
  | letter =>
      let shown := if 31 ≤ letter.toNat && letter.toNat ≤ 126 then letter else '?'
      .error (.badTemplate ("unsupported format character '" ++ [shown] ++ "' (0x" ++
        Text.ofNatHex 0 letter.toNat ++ ") at index " ++ Text.ofNat index))

def Directive.render (directive : Directive) (index : Nat) (argument : Value) : Outcome Text :=
  if directive.width ≤ greatestTextLength then directive.renderHeld index argument
  else ({ directive with width := 0 }.renderHeld index argument).bind fun _ => .error .textTooLong

inductive Size where
  | width
  | precision

def Size.bound : Size → Nat
  | width => Nat.pow 2 63
  | precision => Nat.pow 2 31

/-- The digits of a size that is written out are too many. -/
def Size.writtenFault : Size → Fault
  | width => .badTemplate "width too big"
  | precision => .badTemplate "precision too big"

def Size.argumentFault : Size → Fault
  | width => .sizeTooLarge "ssize_t"
  | precision => .sizeTooLarge "int"

/-- A width or precision: digits, or a star that takes an argument. -/
def Size.take (kind : Size) (text : Text) (arguments : List Value) :
    Outcome (Option Int × Text × List Value) :=
  match text with
  | '*' :: rest =>
      match arguments with
      | argument :: arguments => do
          let size ← match argument with
            | .int size => pure size
            | .bool truth => pure truth.toInt
            | _ => .error .templateMismatch
          if size < -kind.bound || (kind.bound : Int) ≤ size then .error kind.argumentFault
          else pure (some size, rest, arguments)
      | [] => .error .templateMismatch
  | _ =>
      let (digits, rest) := text.span isAsciiDigit
      let size := Text.digitsToNat digits
      if kind.bound ≤ size then .error kind.writtenFault
      else .ok (if digits.isEmpty then none else some size, rest, arguments)

/-- The flags, width and precision of a directive, its letter, and what follows it. -/
def readDirective (text : Text) (arguments : List Value) :
    Outcome (Directive × Text × List Value) := do
  let isFlag (c : Char) : Bool := c = '-' || c = '+' || c = ' ' || c = '#' || c = '0'
  let (flags, rest) := text.span isFlag
  let (width, rest, arguments) ← Size.width.take rest arguments
  let flags := if width.any (· < 0) then '-' :: flags else flags
  let (precision, rest, arguments) ←
    match rest with
    | '.' :: rest => do
        let (size, rest, arguments) ← Size.precision.take rest arguments
        pure (some (size.getD 0).toNat, rest, arguments)
    | _ => pure (none, rest, arguments)
  let rest := match rest with
    | c :: after => if c = 'h' || c = 'l' || c = 'L' then after else rest
    | [] => []
  match rest with
  | [] => .error (.badTemplate "incomplete format")
  | letter :: after =>
      .ok ({ flags, width := (width.getD 0).natAbs, precision, letter }, after, arguments)

/-- Writes a template; `fuel` bounds the number of its characters, `index` is the position. -/
def renderFrom (size : Nat) : Nat → Text → List Value → Outcome Text
  | 0, _, _ | _, [], [] => .ok []
  | _, [], _ :: _ => .error .templateMismatch
  | fuel + 1, '%' :: rest, arguments =>
      match rest with
      | '%' :: after => (renderFrom size fuel after arguments).map ('%' :: ·)
      | '(' :: _ => .error .templateMismatch
      | _ => do
          let (directive, after, arguments) ← readDirective rest arguments
          match arguments with
          | [] => .error .templateMismatch
          | argument :: arguments => do
              let text ← directive.render (size - after.length - 1) argument
              return text ++ (← renderFrom size fuel after arguments)
  | fuel + 1, c :: rest, arguments => (renderFrom size fuel rest arguments).map (c :: ·)

def render (template : Text) (arguments : List Value) : Outcome Text :=
  renderFrom template.length (template.length + 1) template arguments

end Covenant.MessageTemplate
