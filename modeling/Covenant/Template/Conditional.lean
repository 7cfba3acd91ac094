import Covenant.Context.Basic
import Covenant.Template.BlankLines
import Covenant.Template.Block
import Covenant.Text.Folded

/-!
# Conditional blocks

The text between `[[IF:Name]]` and `[[ENDIF:Name]]` is kept when the test in the
opening tag holds and left out otherwise.  The test is `Name`, `!Name`,
`Name=value` or `Name!=value`.  Blocks are reduced from the inside out.  Tags
that do not pair stay in the text and are reported.
-/

namespace Covenant.Conditional

/-- The argument of a tag with the given word, and the text after the tag. -/
def tagWith? (word text : Text) : Option (Text × Text) := do
  let rest ← Text.afterOpening? text
  let rest ← Text.afterWord? word (Text.trimStart rest)
  let rest ← Text.afterBlanksAnd? ':' rest
  let argument := rest.takeWhile fun c => !isBracket c
  let rest ← Text.afterClosing? (rest.drop argument.length)
  some (argument, rest)

def recognise : Recogniser TagForm := fun _ text =>
  let sized (isOpen : Bool) : Text × Text → TagForm × Nat :=
    fun (argument, rest) => (⟨isOpen, argument⟩, text.length - rest.length)
  ((tagWith? "if" text).map (sized true)).or ((tagWith? "endif" text).map (sized false))

/-- The text before the first `=` or `!=`. -/
def beforeComparison : Text → Text
  | [] => []
  | '=' :: _ => []
  | '!' :: '=' :: _ => []
  | c :: rest => c :: beforeComparison rest

/-- The name in the argument of a tag: `!HasKids` has `HasKids`, `Status!=open` has `Status`. -/
def fieldName (argument : Text) : Text :=
  Text.trim (beforeComparison ((Text.trim argument).dropWhile (· = '!')))

def markup : BlockMarkup := ⟨recognise, fieldName⟩

/-- A text counts as false when it is blank, `0` or `false`. -/
def isTrue (value : Text) : Bool :=
  let value := Text.lower (Text.trim value)
  !value.isEmpty && value ≠ "0" && value ≠ "false"

/-- Whether the text of a name, empty when there is none, is the expected one. -/
def holds (context : ContextMap) (name expected : Text) : Bool :=
  Text.sameLower (Text.trim ((context.lookup (Text.trim name)).getD [])) (Text.trim expected)

def test (context : ContextMap) (argument : Text) : Bool :=
  let argument := Text.trim argument
  if argument.isEmpty then true
  else match Text.splitFirst? "!=" argument with
    | some (name, expected) => !holds context name expected
    | none => match Text.splitFirst? "=" argument with
      | some (name, expected) => holds context name expected
      | none => match argument with
        | '!' :: name => !(context.lookup (Text.trim name)).any isTrue
        | name => (context.lookup name).any isTrue

/-- What a block becomes: its trimmed content, or nothing. -/
def render (context : ContextMap) (argument inner : Text) : Text :=
  if test context argument then Text.trim inner else []

def limitMessage (passes : Int) : Text :=
  "Conditional blocks still present after " ++ Text.ofInt passes ++ " passes; stopped"

def strip (context : ContextMap) (passes : Int) (text : Text) : PassResult :=
  if mayHoldTags text then
    let reduced := Id.run <|
      markup.reduce (fun argument inner => pure (render context argument inner)) passes.toNat [] text
    { text := BlankLines.collapse reduced.text
      problems :=
        if reduced.finished then reduced.problems else reduced.problems ++ [limitMessage passes] }
  else { text }

end Covenant.Conditional
