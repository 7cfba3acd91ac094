import Covenant.Console.Color

/-!
# Console styles

A style is written in words: attributes such as `bold` or `not italic`, a color,
a background color after `on`, and the target of a link after `link`.  Styles
that say the same have one normal form.
-/

namespace Covenant

def styleAttributes : List Text := [
  "bold", "dim", "italic", "underline", "blink", "blink2", "reverse", "conceal", "strike",
  "underline2", "frame", "encircle", "overline"]

def shortAttributes : List (Text × Text) := [
  ("b", "bold"), ("d", "dim"), ("i", "italic"), ("u", "underline"), ("r", "reverse"),
  ("c", "conceal"), ("s", "strike"), ("uu", "underline2"), ("o", "overline")]

def styleAttribute? (word : Text) : Option Text :=
  if styleAttributes.contains word then some word else shortAttributes.lookup word

structure Style where
  /-- The attributes that are set or cleared, the last one first. -/
  attributes : List (Text × Bool) := []
  color : Option Text := none
  background : Option Text := none
  link : Option Text := none

namespace Style

/-- Reads words; nothing if they are no style. -/
def ofWords? (style : Style) : List Text → Outcome (Option Style)
  | [] => .ok (some style)
  | word :: words =>
      let lower := Text.lower word
      if lower = "on" then
        match words with
        | [] => .ok none
        | color :: words => do
            if ← Color.isColor (Text.lower color) then
              ofWords? { style with background := some (Text.lower color) } words
            else return none
      else if lower = "not" then
        match words with
        | [] => .ok none
        | word :: words =>
            match styleAttribute? word with
            | some name => ofWords? { style with attributes := (name, false) :: style.attributes } words
            | none => .ok none
      else if lower = "link" then
        match words with
        | [] => .ok none
        | target :: words => ofWords? { style with link := some target } words
      else match styleAttribute? lower with
        | some name => ofWords? { style with attributes := (name, true) :: style.attributes } words
        | none => do
            if ← Color.isColor lower then ofWords? { style with color := some lower } words
            else return none

def toWords (style : Style) : List Text :=
  let attributes := styleAttributes.flatMap fun name =>
    match style.attributes.lookup name with
    | some true => [name]
    | some false => ["not", name]
    | none => []
  let after (word : Text) (value : Option Text) : List Text := value.toList.flatMap ([word, ·])
  attributes ++ style.color.toList ++ after "on" style.background ++ after "link" style.link

/-- The normal form of a style; of a text that is no style, the text in lower case. -/
def normalForm (text : Text) : Outcome Text := do
  match ← ofWords? {} (Text.words text) with
  | some style =>
      let words := style.toWords
      return if words.isEmpty then "none" else Text.joinWith " " words
  | none => return Text.lower (Text.trim text)

end Style

end Covenant
