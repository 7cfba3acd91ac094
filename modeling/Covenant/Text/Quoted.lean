import Covenant.Text.Printable

/-!
# Quoted text

A text is shown between single quotes, or between double quotes when it holds a
single quote and no double quote.  The chosen quote, the backslash and every
character that does not print are escaped.
-/

namespace Covenant.Text

/-- The quote that surrounds a text when it is shown. -/
def quoteFor (text : Text) : Char :=
  if text.contains '\'' && !text.contains '"' then '"' else '\''

def escapeChar (quote : Char) (c : Char) : Text :=
  if c = quote || c = '\\' then ['\\', c]
  else if c = '\n' then ['\\', 'n']
  else if c = '\r' then ['\\', 'r']
  else if c = '\t' then ['\\', 't']
  else if isPrintable c then [c]
  else
    let code := c.toNat
    if code < 0x100 then '\\' :: 'x' :: ofNatHex 2 code
    else if code < 0x10000 then '\\' :: 'u' :: ofNatHex 4 code
    else '\\' :: 'U' :: ofNatHex 8 code

def quoted (text : Text) : Text :=
  let quote := quoteFor text
  quote :: text.flatMap (escapeChar quote) ++ [quote]

end Covenant.Text
