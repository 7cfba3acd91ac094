import Covenant.Console.Control
import Covenant.Console.Emoji
import Covenant.Console.Handler
import Covenant.Console.Style

/-!
# Console markup

Lines for the console may hold style tags in square brackets, such as `[red]`
and `[/red]`.  A backslash in front of a tag makes it text; a tag starts with a
small letter or one of a few marks and ends at the next closing bracket.  The
plain text of a line is what is left without its tags, with emoji for their names
and without control characters.
-/

namespace Covenant.Markup

def isTagStart (c : Char) : Bool := ('a' ≤ c && c ≤ 'z') || c = '#' || c = '/' || c = '@'

/-- The content of the tag at the start of a text. -/
def tag? : Text → Option Text
  | '[' :: c :: rest =>
      let more := rest.takeWhile fun c => !isBracket c
      if isTagStart c && (rest.drop more.length).head? = some ']' then some (c :: more) else none
  | _ => none

structure EscapedTag where
  backslashes : Nat
  content : Text

namespace EscapedTag

def source (tag : EscapedTag) : Text := '[' :: tag.content ++ [']']

/-- Recognises a tag with all backslashes in front of it. -/
def recognise : Recogniser EscapedTag := fun _ text =>
  let backslashes := (text.takeWhile (· = '\\')).length
  (tag? (text.drop backslashes)).map fun content =>
    (⟨backslashes, content⟩, backslashes + content.length + 2)

end EscapedTag

def pieces (text : Text) : List (Piece EscapedTag) := Piece.cut EscapedTag.recognise text

/-- A text in which nothing counts as a tag.  A single backslash at the end is doubled. -/
def escape (text : Text) : Text :=
  let escaped := Piece.substitute (fun tag _ =>
    List.replicate (2 * tag.backslashes + 1) '\\' ++ tag.source) (pieces text)
  match escaped.reverse with
  | '\\' :: '\\' :: _ => escaped
  | '\\' :: _ => escaped ++ ['\\']
  | _ => escaped

/-- The text without the backslashes that stand in front of brackets. -/
def dropEscapes : Text → Text
  | [] => []
  | '\\' :: '[' :: rest => '[' :: dropEscapes rest
  | c :: rest => c :: dropEscapes rest

def shownText (text : Text) : Text := Control.dropCodes (Emoji.replace (dropEscapes text))

/-- A style that is open: its normal form, and the handler that its tag may have. -/
structure OpenTag where
  name : Text
  parameters : Text

/-- Whether the tag can be closed: if it names a handler, that has to be well formed. -/
def OpenTag.isClosable (tag : OpenTag) : Bool :=
  tag.name.head? ≠ some '@' || tag.parameters.isEmpty || Handler.isWellFormed tag.parameters

/-- The open tags after closing the innermost one for which the test holds; none if there is no
such tag, or it cannot be closed. -/
def close? (test : OpenTag → Bool) (tags : List OpenTag) : Option (List OpenTag) :=
  match tags.find? test with
  | some tag => if tag.isClosable then some (tags.eraseP test) else none
  | none => none

/-- The open tags, the innermost first, after a tag.  A closing tag closes the style it names, or
the last one; there may be none to close. -/
def openAfter (tags : List OpenTag) (content : Text) : Outcome (Option (List OpenTag)) :=
  let (name, parameters) := content.span (· ≠ '=')
  match name with
  | '/' :: name =>
      let name := Text.trim name
      if name.isEmpty then .ok (close? (fun _ => true) tags)
      else do
        let name ← Style.normalForm name
        return close? (fun tag => tag.name = name) tags
  | name => do return some (⟨← Style.normalForm name, parameters.drop 1⟩ :: tags)

/-- The plain text of pieces, unless a closing tag closes nothing: `plain` holds the text since
the last tag, last character first, and `tags` the open tags, the innermost first. -/
def plainPieces : Text → List OpenTag → List (Piece EscapedTag) → Outcome (Option Text)
  | plain, _, [] => .ok (some (shownText plain.reverse))
  | plain, tags, .plain c :: rest => plainPieces (c :: plain) tags rest
  | plain, tags, .token tag _ :: rest => do
      let before := shownText plain.reverse ++ List.replicate (tag.backslashes / 2) '\\'
      if tag.backslashes % 2 = 1 then
        return (← plainPieces [] tags rest).map (before ++ shownText tag.source ++ ·)
      else
        match ← openAfter tags tag.content with
        | some tags => return (← plainPieces [] tags rest).map (before ++ ·)
        | none => return none

/-- The plain text of a line; none when a closing tag has nothing to close. -/
def plain? (line : Text) : Outcome (Option Text) := plainPieces [] [] (pieces line)

end Covenant.Markup
