import Covenant.Text.Blank

/-!
# Decimal digits

Unicode has a run of ten decimal digits for every script that writes numbers by
position.  Numbers may be written with the digits of any script.
-/

namespace Covenant

/-- The code points of the digit zero of every script. -/
def digitZeros : List Nat := [
  0x30, 0x660, 0x6F0, 0x7C0, 0x966, 0x9E6, 0xA66, 0xAE6, 0xB66, 0xBE6, 0xC66, 0xCE6, 0xD66, 0xDE6,
  0xE50, 0xED0, 0xF20, 0x1040, 0x1090, 0x17E0, 0x1810, 0x1946, 0x19D0, 0x1A80, 0x1A90, 0x1B50,
  0x1BB0, 0x1C40, 0x1C50, 0xA620, 0xA8D0, 0xA900, 0xA9D0, 0xA9F0, 0xAA50, 0xABF0, 0xFF10, 0x104A0,
  0x10D30, 0x11066, 0x110F0, 0x11136, 0x111D0, 0x112F0, 0x11450, 0x114D0, 0x11650, 0x116C0,
  0x11730, 0x118E0, 0x11950, 0x11C50, 0x11D50, 0x11DA0, 0x16A60, 0x16AC0, 0x16B50, 0x1D7CE,
  0x1D7D8, 0x1D7E2, 0x1D7EC, 0x1D7F6, 0x1E140, 0x1E2F0, 0x1E950, 0x1FBF0]

def digitValue? (c : Char) : Option Nat :=
  let code := c.toNat
  if code < 0x80 then
    if 0x30 ≤ code && code ≤ 0x39 then some (code - 0x30) else none
  else
    (digitZeros.find? fun start => start ≤ code && code < start + 10).map (code - ·)

def isDigit (c : Char) : Bool := (digitValue? c).isSome

/-- The digits `0` to `9`. -/
def isAsciiDigit (c : Char) : Bool := '0' ≤ c && c ≤ '9'

def asciiDigit (value : Nat) : Char := Char.ofNat (0x30 + value)

namespace Text

/-- Digits of all scripts become ASCII digits; white space beyond ASCII becomes spaces. -/
def normalizeDigits (text : Text) : Text :=
  text.map fun c =>
    match digitValue? c with
    | some value => asciiDigit value
    | none => if isBlank c && 0x80 ≤ c.toNat then ' ' else c

def digitsToNat (digits : Text) : Nat :=
  digits.foldl (fun number c => 10 * number + (c.toNat - 0x30)) 0

end Text

end Covenant
