import Covenant.Context.Basic
import Covenant.Template.Piece
import Covenant.Text.Folded

/-!
# Placeholders

A placeholder is a name in brackets of one of five styles.  A modifier in front
of the name, as in `[[caps:greeting]]`, changes the case of the value.  Names
that belong to conditional blocks, loops or numbering are structural; they are
no placeholders, whatever the context holds.  Values are inserted as they are
and not searched again.
-/

namespace Covenant

inductive BracketStyle where
  | double
  | legacy
  | angle
  | brace
  | single
deriving DecidableEq

def BracketStyle.label : BracketStyle → Text
  | double => "[[ ]]"
  | legacy => "\x7b\x7b \x7d\x7d"
  | angle => "<< >>"
  | brace => "\x7b \x7d"
  | single => "[ ]"

structure Placeholder where
  style : BracketStyle
  content : Text

namespace Placeholder

def inSquareBrackets (c : Char) : Bool := !isBracket c && !isLineBreak c

def isBrace (c : Char) : Bool := c = '\x7b' || c = '\x7d'

def inBraces (c : Char) : Bool := !isBrace c && !isLineBreak c

def inAngles (c : Char) : Bool := c ≠ '<' && c ≠ '>' && !isLineBreak c

/-- The name in the text between double braces.  White space around it may have line breaks
in it, the name may not; in white space alone the last character that is no line break
counts as the name. -/
def legacyName? (content : Text) : Option Text :=
  let name := Text.trim content
  if name.isEmpty then (content.reverse.find? fun c => !isLineBreak c).map fun c => [c]
  else if name.any isLineBreak then none
  else some name

def legacy? (text : Text) : Option (Text × Nat) := do
  let (content, length) ← enclosed? "\x7b\x7b" "\x7d\x7d" (fun c => !isBrace c) text
  let name ← legacyName? content
  some (name, length)

/-- The placeholder at the start of a text: double brackets win over single ones. -/
def recognise : Recogniser Placeholder := fun _ text =>
  let styled (style : BracketStyle) : Text × Nat → Placeholder × Nat :=
    fun (content, length) => (⟨style, content⟩, length)
  ((enclosed? "[[" "]]" inSquareBrackets text).map (styled .double)).or <|
  ((legacy? text).map (styled .legacy)).or <|
  ((enclosed? "<<" ">>" inAngles text).map (styled .angle)).or <|
  ((enclosed? "\x7b" "\x7d" inBraces text).map (styled .brace)).or <|
  ((enclosed? "[" "]" inSquareBrackets text).map (styled .single))

def structuralNames : List Text := [
  "article", "artikel", "subarticle", "subartikel", "article_number", "artikelnummer",
  "reset_numbering", "nummering_reset"]

/-- How the names of conditional blocks, loops and lists begin. -/
def structuralStarts : List Text := ["if:", "endif:", "#", "/", "list:", "lijst:"]

def isStructural (name : Text) : Bool :=
  let name := Text.lower (Text.trim name)
  structuralNames.contains name || structuralStarts.any (·.isPrefixOf name)

end Placeholder

/-- A word in front of a name that changes the case of the value. -/
structure Modifier where
  word : Text
deriving DecidableEq

namespace Modifier

/-- The modifier in front of a colon, and the name after it. -/
def afterModifier? (word name : Text) : Option (Modifier × Text) := do
  let rest ← Text.afterWord? word name
  let rest ← Text.afterBlanksAnd? ':' rest
  let rest := Text.trimStart rest
  if rest.isEmpty || rest.contains '\n' then none
  else some (⟨Text.lower (name.take word.length)⟩, Text.trim rest)

def words : List Text := ["caps", "upper", "lower"]

def split (content : Text) : Option Modifier × Text :=
  let name := Text.trim content
  match words.findSome? (afterModifier? · name) with
  | some (modifier, name) => (some modifier, name)
  | none => (none, name)

/-- The value in the case that the modifier asks for. -/
def apply (modifier : Modifier) (value : Text) : Text :=
  if modifier.word = "caps" then Text.capitalize value
  else if modifier.word = "upper" then Text.upper value
  else Text.lower value

def applyGiven (modifier : Option Modifier) (value : Text) : Text :=
  match modifier with
  | some modifier => modifier.apply value
  | none => value

end Modifier

namespace Placeholder

/-- What a placeholder stands for: text of another pass, a value, or an unknown name. -/
inductive Reading where
  | structural
  | value (value : Text)
  | unknown (name : Text)

def read (context : ContextMap) (placeholder : Placeholder) : Reading :=
  if isStructural placeholder.content then .structural
  else
    let (modifier, name) := Modifier.split placeholder.content
    match context.lookup name with
    | some value => .value (Modifier.applyGiven modifier value)
    | none => .unknown name

def pieces (text : Text) : List (Piece Placeholder) := Piece.cut recognise text

/-- The text with every placeholder replaced whose name the context has. -/
def resolve (context : ContextMap) (text : Text) : Text :=
  Piece.substitute (fun placeholder source =>
    match placeholder.read context with
    | .value value => value
    | _ => source) (pieces text)

/-- The names that the context lacks, once for every occurrence. -/
def unresolved (context : ContextMap) (text : Text) : List Text :=
  (pieces text).filterMap fun
    | .plain _ => none
    | .token placeholder _ =>
        match placeholder.read context with
        | .unknown name => some name
        | _ => none

end Placeholder

end Covenant
