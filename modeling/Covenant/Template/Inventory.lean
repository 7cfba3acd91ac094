import Covenant.Template.Placeholder

/-!
# The placeholders of a template

Every placeholder of a template is listed once, under its first spelling, with
its number of occurrences, the bracket styles and modifiers it is used with, and
a sample of the text around its first occurrence.
-/

namespace Covenant

structure PlaceholderUse where
  name : Text
  occurrences : Nat
  styles : List BracketStyle
  modifiers : List Modifier
  sample : Text

namespace PlaceholderUse

/-- The number of characters shown on either side of a placeholder. -/
def sampleMargin : Nat := 40

def sampleOf (text : Text) (found : Found Placeholder) : Text :=
  Text.replaceChar '\n' " "
    (Text.slice (found.start - sampleMargin) (found.stop + sampleMargin) text)

def appendNew {α : Type} [BEq α] (items : List α) (item : α) : List α :=
  if items.contains item then items else items ++ [item]

def again (use : PlaceholderUse) (style : BracketStyle) (modifier : Option Modifier) :
    PlaceholderUse :=
  { use with
    occurrences := use.occurrences + 1
    styles := appendNew use.styles style
    modifiers := match modifier with
      | some modifier => appendNew use.modifiers modifier
      | none => use.modifiers }

/-- Counts an occurrence of the name; `sample` shows the first. -/
def count (name : Text) (style : BracketStyle) (modifier : Option Modifier) (sample : Text) :
    List PlaceholderUse → List PlaceholderUse
  | [] => [{ name, occurrences := 1, styles := [style], modifiers := modifier.toList, sample }]
  | use :: uses =>
      if Text.sameLower use.name name then use.again style modifier :: uses
      else use :: count name style modifier sample uses

/-- Counts a placeholder unless it is structural. -/
def add (text : Text) (uses : List PlaceholderUse) (found : Found Placeholder) :
    List PlaceholderUse :=
  if Placeholder.isStructural found.token.content then uses
  else
    let (modifier, name) := Modifier.split found.token.content
    count name found.token.style modifier (sampleOf text found) uses

/-- The placeholders of a text in the order of their first occurrences. -/
def ofText (text : Text) : List PlaceholderUse :=
  (Found.ofPieces 0 (Placeholder.pieces text)).foldl (add text) []

end PlaceholderUse

end Covenant
