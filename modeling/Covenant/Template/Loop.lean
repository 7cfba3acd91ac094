import Covenant.Collection.Registry
import Covenant.Template.BlankLines
import Covenant.Template.Block
import Covenant.Template.Placeholder

/-!
# Loops

The text between `[[#NAME]]` and `[[/NAME]]` is repeated for the items of a
collection.  Text that uses variables of the items is rendered once for every
item; other text is rendered once if there is any item at all.  A collection
that is unknown or empty takes its text away.  Variables that an item does not
have stay as they are.
-/

namespace Covenant.Loop

/-- The name in a tag with the given mark, and the text after the tag. -/
def tagWith? (mark : Char) (text : Text) : Option (Text × Text) := do
  let rest ← Text.afterBlanksAnd? mark (← Text.afterOpening? text)
  let rest := Text.trimStart rest
  let name := rest.takeWhile Naming.isNameChar
  if name.isEmpty then none
  else
    let rest ← Text.afterClosing? (Text.trimStart (rest.drop name.length))
    some (name, rest)

def recognise : Recogniser TagForm := fun _ text =>
  let sized (isOpen : Bool) : Text × Text → TagForm × Nat :=
    fun (name, rest) => (⟨isOpen, name⟩, text.length - rest.length)
  ((tagWith? '#' text).map (sized true)).or ((tagWith? '/' text).map (sized false))

def markup : BlockMarkup := ⟨recognise, Text.upper⟩

/-- Recognises a variable of an item: a name in double brackets on one line. -/
def recogniseVariable : Recogniser Text := fun _ text =>
  enclosed? "[[" "]]" Placeholder.inSquareBrackets text

def pieces (body : Text) : List (Piece Text) := Piece.cut recogniseVariable body

/-- Whether a text uses a variable that begins with the stem of a collection. -/
def usesStem (stem body : Text) : Bool :=
  (pieces body).any fun
    | .plain _ => false
    | .token content _ => (Text.upper stem).isPrefixOf (Text.upper (Modifier.split content).2)

def valueOf? (values : Members) (name : Text) : Option Value :=
  (values.reverse.find? fun (other, _) => Text.upper other = Text.upper name).map (·.2)

/-- Why a value that is filled but no text cannot take a modifier. -/
def modifierFault (modifier : Modifier) (value : Value) : Fault :=
  if modifier.word = "caps" then
    match value with
    | .list (.text _ :: _) => .notJoinable value.kindName
    | .list _ => .notText value.kindName
    | .object _ => .missingMember (.int 0)
    | _ => .notSubscriptable value.kindName
  else .notText value.kindName

def modified (modifier : Modifier) (value : Value) : Outcome Value :=
  match value with
  | .text content => .ok (.text (modifier.apply content))
  | value => if value.isFilled then .error (modifierFault modifier value) else .ok value

/-- What a piece becomes for an item with the given values. -/
def pieceValue (values : Members) : Piece Text → Outcome Value
  | .plain c => .ok (.text [c])
  | .token content source =>
      let (modifier, name) := Modifier.split content
      match valueOf? values name, modifier with
      | some value, some modifier => modified modifier value
      | some value, none => .ok value
      | none, _ => .ok (.text source)

/-- The texts one after the other; a value that is no text is a fault. -/
def joinTexts (values : List Value) : Outcome Text := do
  let texts ← values.mapM fun
    | .text content => .ok content
    | value => .error (.notJoinable value.kindName)
  return texts.flatten

def renderItem (values : Members) (body : Text) : Outcome Text := do
  joinTexts (← (pieces body).mapM (pieceValue values))

structure Source where
  settings : Settings
  registry : Registry
  data : CaseData
  /-- Names in which records may be stored besides the case. -/
  surroundings : Members := []

def render (source : Source) (name body : Text) : Outcome Text :=
  match source.registry.find? name with
  | none => .ok []
  | some collection => do
      let items ← collection.items source.settings source.data source.surroundings
      if items.isEmpty then return []
      else if usesStem collection.stem body then
        let texts ← items.mapM fun item => do
          renderItem (← collection.itemValues source.settings source.data item) body
        return texts.flatten
      else return Text.trim body

def limitMessage (passes : Int) : Text :=
  "Loop blocks still present after " ++ Text.ofInt passes ++ " passes; stopped"

def expand (source : Source) (passes : Int) (text : Text) : Outcome PassResult :=
  if mayHoldTags text then do
    let reduced ← markup.reduce (render source) passes.toNat [] text
    return {
      text := BlankLines.collapse reduced.text
      problems :=
        if reduced.finished then reduced.problems else reduced.problems ++ [limitMessage passes] }
  else .ok { text }

end Covenant.Loop
