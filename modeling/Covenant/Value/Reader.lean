import Covenant.Number.Reading
import Covenant.Value.Basic

/-!
# Reading JSON

`Value.ofJson` reads one JSON value with white space around it.  Besides the
standard's grammar it knows the numbers `NaN`, `Infinity` and `-Infinity`.  A
repeated member keeps its first place and its last value.  An error says what
was expected and where: the position is the number of characters before it.
-/

namespace Covenant

inductive JsonFault where
  | byteOrderMark
  | noValue
  | noName
  | noColon
  | noComma
  | extraData
  | unterminatedString
  | controlCharacter
  | badEscape
  | badCodeEscape
deriving DecidableEq

def JsonFault.message : JsonFault → Text
  | .byteOrderMark => "Unexpected UTF-8 BOM (decode using utf-8-sig)"
  | .noValue => "Expecting value"
  | .noName => "Expecting property name enclosed in double quotes"
  | .noColon => "Expecting ':' delimiter"
  | .noComma => "Expecting ',' delimiter"
  | .extraData => "Extra data"
  | .unterminatedString => "Unterminated string starting at"
  | .controlCharacter => "Invalid control character at"
  | .badEscape => "Invalid \\escape"
  | .badCodeEscape => "Invalid \\uXXXX escape"

/-- A fault with the number of characters from its place to the end of the text, or an
integer that is too long. -/
inductive JsonReadError where
  | fault (fault : JsonFault) (remaining : Nat)
  | tooManyDigits (count : Nat)
deriving DecidableEq

namespace JsonReader

abbrev Result (α : Type) := Except JsonReadError α

def faultAt {α : Type} (fault : JsonFault) (rest : Text) : Result α :=
  .error (.fault fault rest.length)

def isSpace (c : Char) : Bool := c == ' ' || c == '\t' || c == '\n' || c == '\r'

def skipSpace (text : Text) : Text := text.dropWhile isSpace

def hexValue? (c : Char) : Option Nat :=
  if isAsciiDigit c then some (c.toNat - 0x30)
  else if 'a' ≤ c && c ≤ 'f' then some (c.toNat - 0x57)
  else if 'A' ≤ c && c ≤ 'F' then some (c.toNat - 0x37)
  else none

def hexQuad? (a b c d : Char) : Option Nat := do
  let a ← hexValue? a
  let b ← hexValue? b
  let c ← hexValue? c
  let d ← hexValue? d
  some (((a * 16 + b) * 16 + c) * 16 + d)

/-- The character with the given code; the halves of a pair alone have none. -/
def charOfCode (code : Nat) : Char :=
  if 0xD800 ≤ code && code ≤ 0xDFFF then '\uFFFD' else Char.ofNat code

def isHighHalf (code : Nat) : Bool := 0xD800 ≤ code && code ≤ 0xDBFF

def isLowHalf (code : Nat) : Bool := 0xDC00 ≤ code && code ≤ 0xDFFF

def joinHalves (high low : Nat) : Char :=
  Char.ofNat (0x10000 + (high - 0xD800) * 0x400 + (low - 0xDC00))

def escaped? (c : Char) : Option Char :=
  match c with
  | '"' | '\\' | '/' => some c
  | 'b' => some '\x08'
  | 'f' => some '\x0C'
  | 'n' => some '\n'
  | 'r' => some '\r'
  | 't' => some '\t'
  | _ => none

/-- A pair of code escapes, read after the first one: the second half, if there is one. -/
def lowHalf? (rest : Text) : Result (Option Nat) :=
  match rest with
  | '\\' :: 'u' :: a :: b :: c :: d :: _ :: _ =>
      match hexQuad? a b c d with
      | none => faultAt .badCodeEscape rest.tail
      | some low => .ok (if isLowHalf low then some low else none)
  | _ => .ok none

/-- The escape after a backslash: its character, and how many characters it takes. -/
def readEscape (opening : Nat) (text : Text) : Result (Char × Nat) :=
  match text with
  | [] => .error (.fault .unterminatedString opening)
  | 'u' :: a :: b :: c :: d :: e :: rest =>
      match hexQuad? a b c d with
      | none => faultAt .badCodeEscape text
      | some code =>
          if isHighHalf code then
            (lowHalf? (e :: rest)).map fun
              | some low => (joinHalves code low, 11)
              | none => (charOfCode code, 5)
          else .ok (charOfCode code, 5)
  | 'u' :: _ => faultAt .badCodeEscape text
  | c :: _ =>
      match escaped? c with
      | some meant => .ok (meant, 1)
      | none => .error (.fault .badEscape (text.length + 1))

/-- The characters of a string up to the closing quote, and what follows it.  `opening` is
the length of the text from the opening quote; `skip` characters belong to an escape. -/
def readString (opening : Nat) : Nat → Text → Result (Text × Text)
  | _, [] => .error (.fault .unterminatedString opening)
  | skip + 1, _ :: rest => readString opening skip rest
  | 0, c :: rest =>
      if c = '"' then .ok ([], rest)
      else if c = '\\' then
        match readEscape opening rest with
        | .error e => .error e
        | .ok (meant, taken) =>
            (readString opening taken rest).map fun (read, after) => (meant :: read, after)
      else if c.toNat < 0x20 then faultAt .controlCharacter (c :: rest)
      else (readString opening 0 rest).map fun (read, after) => (c :: read, after)

/-- An exponent with at least one digit, and what follows it. -/
def spanExponent (text : Text) : Text × Text :=
  match text with
  | mark :: rest =>
      if mark = 'e' || mark = 'E' then
        let sign := rest.take 1 |>.filter fun c => c == '-' || c == '+'
        let (digits, after) := (rest.drop sign.length).span isAsciiDigit
        if digits.isEmpty then ([], text) else (mark :: sign ++ digits, after)
      else ([], text)
  | [] => ([], [])

/-- A point with at least one digit after it, and what follows. -/
def spanFraction (text : Text) : Text × Text :=
  match text with
  | '.' :: rest =>
      let (digits, after) := rest.span isAsciiDigit
      if digits.isEmpty then ([], text) else ('.' :: digits, after)
  | _ => ([], text)

/-- The integer part of a number: a single zero, or digits that start with another one. -/
def spanWhole (text : Text) : Text × Text :=
  match text with
  | '0' :: rest => (['0'], rest)
  | _ => text.span isAsciiDigit

def readNumber (text : Text) : Result (Value × Text) :=
  let (sign, unsigned) := match text with
    | '-' :: rest => (['-'], rest)
    | _ => ([], text)
  let (whole, rest) := spanWhole unsigned
  let (fraction, rest) := spanFraction rest
  let (exponent, rest) := spanExponent rest
  if whole.isEmpty then faultAt .noValue text
  else if fraction.isEmpty && exponent.isEmpty then
    match readInteger (sign ++ whole) with
    | .ok number => .ok (.int number, rest)
    | .error (.tooManyDigits count) => .error (.tooManyDigits count)
    | .error .notANumeral => faultAt .noValue text
  else
    match Binary64.ofText? (sign ++ whole ++ fraction ++ exponent) with
    | some number => .ok (.float number, rest)
    | none => faultAt .noValue text

def namedValues : List (Text × Value) :=
  [("null", .null), ("true", .bool true), ("false", .bool false), ("NaN", .float .nan),
    ("Infinity", .float (.infinite false)), ("-Infinity", .float (.infinite true))]

def readScalar (text : Text) : Result (Value × Text) :=
  match namedValues.find? fun (name, _) => name.isPrefixOf text with
  | some (name, value) => .ok (value, text.drop name.length)
  | none => readNumber text

mutual

/-- Reads one value at the front of the text.  Every call uses up some of the fuel, of which
twice the length of the text is enough. -/
def readValue : Nat → Text → Result (Value × Text)
  | 0, text => faultAt .noValue text
  | fuel + 1, text =>
      match text with
      | '"' :: rest =>
          (readString text.length 0 rest).map fun (read, after) => (.text read, after)
      | '{' :: rest =>
          match skipSpace rest with
          | '}' :: after => .ok (.object [], after)
          | inside => readMembers fuel [] inside
      | '[' :: rest =>
          match skipSpace rest with
          | ']' :: after => .ok (.list [], after)
          | inside => readItems fuel [] inside
      | _ => readScalar text

def readMembers : Nat → Members → Text → Result (Value × Text)
  | 0, _, text => faultAt .noName text
  | fuel + 1, members, text =>
      match text with
      | '"' :: rest =>
          match readString text.length 0 rest with
          | .error e => .error e
          | .ok (name, rest) =>
              match skipSpace rest with
              | ':' :: rest =>
                  match readValue fuel (skipSpace rest) with
                  | .error e => .error e
                  | .ok (value, rest) =>
                      let members := Members.insert name value members
                      match skipSpace rest with
                      | '}' :: after => .ok (.object members, after)
                      | ',' :: rest => readMembers fuel members (skipSpace rest)
                      | rest => faultAt .noComma rest
              | rest => faultAt .noColon rest
      | _ => faultAt .noName text

/-- The items of a list from an item on; those already read come last first. -/
def readItems : Nat → List Value → Text → Result (Value × Text)
  | 0, _, text => faultAt .noValue text
  | fuel + 1, items, text =>
      match readValue fuel text with
      | .error e => .error e
      | .ok (item, rest) =>
          match skipSpace rest with
          | ']' :: after => .ok (.list (item :: items).reverse, after)
          | ',' :: rest => readItems fuel (item :: items) (skipSpace rest)
          | rest => faultAt .noComma rest

end

end JsonReader

def Value.ofJson (text : Text) : Except JsonReadError Value :=
  if text.head? = some '\uFEFF' then JsonReader.faultAt .byteOrderMark text
  else
    match JsonReader.readValue (2 * text.length + 2) (JsonReader.skipSpace text) with
    | .error e => .error e
    | .ok (value, rest) =>
        match JsonReader.skipSpace rest with
        | [] => .ok value
        | extra => JsonReader.faultAt .extraData extra

/-- Where a fault is: the line and the column, counted from one, and the position. -/
def JsonFault.describe (fault : JsonFault) (text : Text) (remaining : Nat) : Text :=
  let before := text.take (text.length - remaining)
  let line := before.count '\n' + 1
  let column := (before.reverse.takeWhile (· ≠ '\n')).length + 1
  fault.message ++ ": line " ++ Text.ofNat line ++ " column " ++ Text.ofNat column ++
    " (char " ++ Text.ofNat before.length ++ ")"

end Covenant
