import Covenant.Template.Piece
import Covenant.Text.Blank
import Covenant.Text.Case

/-!
# Blocks

A block is the text between an opening and a closing tag with the same key.
Tags are paired with a stack, so blocks nest, also under one key.  A closing tag
that does not fit the innermost open tag stays unpaired, and so does an opening
tag that is never closed; both are faults of the markup.

A scan reports the innermost blocks, those without an opening tag inside.  They
do not overlap and come in the order in which they stand in the text, so one
pass can exchange them all; `BlockMarkup.reduce` repeats that until no block is
left or the passes are used up.
-/

namespace Covenant

/-- What a tag says: whether it opens a block, and its argument. -/
structure TagForm where
  isOpen : Bool
  argument : Text

/-- A kind of block markup: the tags, and the name in an argument under which they pair. -/
structure BlockMarkup where
  recognise : Recogniser TagForm
  nameOf : Text → Text

structure Tag where
  isOpen : Bool
  argument : Text
  /-- The name in the form in which tags are paired. -/
  key : Text
  start : Nat
  source : Text

namespace Tag

def stop (tag : Tag) : Nat := tag.start + tag.source.length

end Tag

inductive MarkupFault where
  | unopened (tag : Tag)
  | mismatched (tag innermost : Tag)
  | unclosed (tag : Tag)

namespace MarkupFault

def tag : MarkupFault → Tag
  | unopened tag => tag
  | mismatched tag _ => tag
  | unclosed tag => tag

def message : MarkupFault → Text
  | unopened tag => "Closing tag " ++ tag.source ++ " has no opening tag"
  | mismatched tag innermost =>
      "Closing tag " ++ tag.source ++ " does not match " ++ innermost.source
  | unclosed tag => "Opening tag " ++ tag.source ++ " is never closed"

end MarkupFault

/-- A pair of tags without an opening tag between them. -/
structure Block where
  opening : Tag
  closing : Tag

namespace Block

def start (block : Block) : Nat := block.opening.start

def stop (block : Block) : Nat := block.closing.stop

def inner (block : Block) (text : Text) : Text :=
  Text.slice block.opening.stop block.closing.start text

end Block

structure BlockScan where
  blocks : List Block
  faults : List MarkupFault

structure OpenTag where
  tag : Tag
  hasInner : Bool := false

def pushOpen (tag : Tag) : List OpenTag → List OpenTag
  | [] => [{ tag }]
  | outer :: rest => { tag } :: { outer with hasInner := true } :: rest

/-- Pairs tags; `waiting` holds the open tags, the innermost first. -/
def pairTags : List OpenTag → List Tag → BlockScan
  | waiting, [] => ⟨[], waiting.reverse.map fun opened => .unclosed opened.tag⟩
  | waiting, tag :: tags =>
      if tag.isOpen then pairTags (pushOpen tag waiting) tags
      else match waiting with
        | [] =>
            let scan := pairTags [] tags
            { scan with faults := .unopened tag :: scan.faults }
        | innermost :: rest =>
            if innermost.tag.key = tag.key then
              let scan := pairTags rest tags
              if innermost.hasInner then scan
              else { scan with blocks := ⟨innermost.tag, tag⟩ :: scan.blocks }
            else
              let scan := pairTags (innermost :: rest) tags
              { scan with faults := .mismatched tag innermost.tag :: scan.faults }

namespace BlockMarkup

def tagOf (markup : BlockMarkup) (found : Found TagForm) : Tag :=
  let argument := Text.trim found.token.argument
  { isOpen := found.token.isOpen
    argument
    key := Text.lower (Text.trim (markup.nameOf argument))
    start := found.start
    source := found.source }

def tags (markup : BlockMarkup) (text : Text) : List Tag :=
  (Found.ofPieces 0 (Piece.cut markup.recognise text)).map markup.tagOf

def scan (markup : BlockMarkup) (text : Text) : BlockScan := pairTags [] (markup.tags text)

end BlockMarkup

/-- The text from the place `cursor` on with every block exchanged for its rendering.  The
blocks come in order and do not overlap. -/
def replaceBlocksFrom {m : Type → Type} [Monad m] (text : Text) (render : Block → m Text) :
    Nat → List Block → m Text
  | cursor, [] => pure (text.drop cursor)
  | cursor, block :: blocks => do
      let rendered ← render block
      let rest ← replaceBlocksFrom text render block.stop blocks
      return Text.slice cursor block.start text ++ rendered ++ rest

/-- The text with every block exchanged for what `render` makes of its argument and content. -/
def replaceBlocks {m : Type → Type} [Monad m] (render : Text → Text → m Text) (text : Text)
    (blocks : List Block) : m Text :=
  replaceBlocksFrom text (fun block => render block.opening.argument (block.inner text)) 0 blocks

structure Reduced where
  text : Text
  /-- The messages of the faults met in any pass, each once. -/
  problems : List Text
  finished : Bool

def addProblems (problems : List Text) (faults : List MarkupFault) : List Text :=
  faults.foldl (fun problems fault =>
    if problems.contains fault.message then problems else problems ++ [fault.message]) problems

/-- Exchanges innermost blocks, in as many passes as needed but at most `passes`. -/
def BlockMarkup.reduce {m : Type → Type} [Monad m] (markup : BlockMarkup)
    (render : Text → Text → m Text) : Nat → List Text → Text → m Reduced
  | passes, problems, text =>
      let found := markup.scan text
      let problems := addProblems problems found.faults
      if found.blocks.isEmpty then pure ⟨text, problems, true⟩
      else match passes with
        | 0 => pure ⟨text, problems, false⟩
        | passes + 1 => do
            let text ← replaceBlocks render text found.blocks
            markup.reduce render passes problems text

/-- A text after a pass, with the problems to report. -/
structure PassResult where
  text : Text
  problems : List Text := []

def mayHoldTags (text : Text) : Bool := Text.hasInfix "[[" text

end Covenant
