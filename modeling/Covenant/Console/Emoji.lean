import Covenant.Console.EmojiTable
import Covenant.Template.Piece
import Covenant.Text.Blank
import Covenant.Text.Case

/-!
# Emoji in console texts

A name between colons, such as `:heart:`, stands for an emoji; `:heart-text:` and
`:heart-emoji:` choose how it is shown.  A name that no emoji has stays as it is.
-/

namespace Covenant.Emoji

/-- A name of an emoji that may come in skin tones. -/
structure Entry where
  name : Text
  emoji : Text
  hasTones : Bool

def Entry.ofText (text : Text) : Entry :=
  let (name, rest) := text.span fun c => c ≠ '=' && c ≠ '~'
  { name, emoji := rest.drop 1, hasTones := rest.head? = some '~' }

def entries : List Entry :=
  EmojiTable.lines.flatMap fun line => (Text.splitAt ' ' line.toList).map Entry.ofText

def entry? (name : Text) : Option Entry := entries.find? fun entry => entry.name = name

/-- The ends of names that give a skin tone, and the character for the tone. -/
def tones : List (Text × Char) := [
  ("_light_skin_tone", '🏻'), ("_medium-light_skin_tone", '🏼'), ("_medium_skin_tone", '🏽'),
  ("_medium-dark_skin_tone", '🏾'), ("_dark_skin_tone", '🏿')]

def emojiVariant : Char := '\ufe0f'

def textVariant : Char := '\ufe0e'

/-- The emoji with a skin tone, which follows its first character. -/
def withTone (tone : Char) : Text → Text
  | [] => []
  | c :: rest => c :: tone :: (if rest.head? = some emojiVariant then rest.drop 1 else rest)

/-- The emoji that has a name ending in a skin tone. -/
def toned? (name : Text) : Option Text :=
  tones.findSome? fun (ending, tone) =>
    if ending.isSuffixOf name then
      match entry? (name.take (name.length - ending.length)) with
      | some entry => if entry.hasTones then some (withTone tone entry.emoji) else none
      | none => none
    else none

def ofName? (name : Text) : Option Text :=
  match entry? name with
  | some entry => some entry.emoji
  | none => toned? name

/-- What chooses a variant in front of the closing colon. -/
def variants : List (Text × Char) := [("-emoji:", emojiVariant), ("-text:", textVariant)]

/-- A code: its name, and the variant it chooses. -/
structure Code where
  name : Text
  variant : Text

namespace Code

/-- Reads a code that goes on after the characters of `before`, the last one first; also gives
the number of characters read. -/
def readAfter (before : Text) : Text → Option (Code × Nat)
  | [] => none
  | c :: rest =>
      match variants.find? fun (ending, _) => ending.isPrefixOf (c :: rest) with
      | some (ending, variant) => some (⟨before.reverse, [variant]⟩, ending.length)
      | none =>
          if c = ':' then some (⟨before.reverse, []⟩, 1)
          else if isBlank c then none
          else (readAfter (c :: before) rest).map fun (code, length) => (code, length + 1)

def recognise : Recogniser Code := fun _ text =>
  match text with
  | ':' :: rest => (readAfter [] rest).map fun (code, length) => (code, length + 1)
  | _ => none

/-- What a code stands for, if an emoji has its name. -/
def emoji? (code : Code) : Option Text :=
  (ofName? (Text.lower code.name)).map (· ++ code.variant)

end Code

/-- The text with the names of emoji exchanged for the emoji. -/
def replace (text : Text) : Text :=
  Piece.substitute (fun code source => code.emoji?.getD source) (Piece.cut Code.recognise text)

end Covenant.Emoji
