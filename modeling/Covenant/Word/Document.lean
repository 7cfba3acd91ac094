import Covenant.Fault

/-!
# Word documents

A document is a body of paragraphs and tables.  A paragraph is a row of runs,
pieces of text with one formatting.  Paragraphs of the body may end a section;
every section may have a header and a footer of its own.  A cell of a table
covers one or more columns, or continues the cell above it.
-/

namespace Covenant.Word

structure Run where
  text : Text
  bold : Option Bool := none

/-- A paragraph in a cell, a header or a footer. -/
abbrev Line := List Run

/-- The header and the footer of a section, if it has its own. -/
structure Section where
  header : Option (List Line) := none
  footer : Option (List Line) := none

/-- A paragraph of the body, with the section that it ends. -/
structure Paragraph where
  runs : List Run
  sectionEnd : Option Section := none

inductive Cell where
  | content (lines : List Line) (span : Nat)
  | continued

abbrev Table := List (List Cell)

inductive BodyItem where
  | paragraph (paragraph : Paragraph)
  | table (table : Table)

/-- A document; its last section ends with the body. -/
structure Document where
  body : List BodyItem
  lastSection : Section := {}

def textOfRuns (runs : List Run) : Text := runs.flatMap (·.text)

def textOfLines (lines : List Line) : Text := Text.unlines (lines.map textOfRuns)

namespace Paragraph

def text (paragraph : Paragraph) : Text := textOfRuns paragraph.runs

end Paragraph

namespace Document

def sectionEnds (body : List BodyItem) : List Section :=
  body.filterMap fun
    | .paragraph paragraph => paragraph.sectionEnd
    | .table _ => none

def sections (document : Document) : List Section :=
  sectionEnds document.body ++ [document.lastSection]

def tables (document : Document) : List Table :=
  document.body.filterMap fun
    | .paragraph _ => none
    | .table table => some table

end Document

/-! ### Writing text -/

def isUnwritable (c : Char) : Bool :=
  (c.toNat < 0x20 && c ≠ '\t' && c ≠ '\n' && c ≠ '\r') || c.toNat = 0xFFFE || c.toNat = 0xFFFF

/-- A text as a run holds it: both kinds of line breaks become one. -/
def heldText (text : Text) : Outcome Text :=
  if text.any isUnwritable then .error .unwritableText
  else .ok (text.map fun c => if c = '\r' then '\n' else c)

/-- The runs with a new text, which goes to the first of them; the others become empty. -/
def setText (text : Text) (runs : List Run) : Outcome (List Run) := do
  let text ← heldText text
  match runs with
  | [] => return [{ text }]
  | first :: rest => return { first with text } :: rest.map fun run => { run with text := [] }

/-- The runs with a new text; they stay as they are when they have the text already. -/
def updateText (text : Text) (runs : List Run) : Outcome (List Run) :=
  if textOfRuns runs = text then .ok runs else setText text runs

def Paragraph.setText (text : Text) (paragraph : Paragraph) : Outcome Paragraph := do
  return { paragraph with runs := ← Word.setText text paragraph.runs }

def Paragraph.updateText (text : Text) (paragraph : Paragraph) : Outcome Paragraph := do
  return { paragraph with runs := ← Word.updateText text paragraph.runs }

/-- What remains of paragraphs for which there is no text: those that end a section, emptied. -/
def emptied : List Paragraph → Outcome (List Paragraph)
  | [] => .ok []
  | paragraph :: rest =>
      if paragraph.sectionEnd.isSome then do
        let paragraph ← paragraph.setText []
        return paragraph :: (← emptied rest)
      else emptied rest

/-- Writes lines into paragraphs, one into each.  Further lines go into copies of the last
paragraph, and paragraphs without a line are dropped unless they end a section. -/
def writeLines : List Paragraph → List Text → Outcome (List Paragraph)
  | [], _ => .ok []
  | paragraphs, [] => emptied paragraphs
  | [paragraph], line :: more => do
      let paragraph ← paragraph.updateText line
      return paragraph :: (← more.mapM fun line => paragraph.setText line)
  | paragraph :: next :: rest, line :: lines => do
      let paragraph ← paragraph.updateText line
      return paragraph :: (← writeLines (next :: rest) lines)

/-- Writes a text into the paragraphs of a cell, a header or a footer. -/
def writeText (lines : List Line) (text : Text) : Outcome (List Line) := do
  let written ← writeLines (lines.map fun runs => { runs }) (Text.lines text)
  return written.map (·.runs)

end Covenant.Word
