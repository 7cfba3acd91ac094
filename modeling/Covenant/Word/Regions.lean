import Covenant.Resolver
import Covenant.Word.Body
import Covenant.Word.Grid

/-!
# Regions

The text of a document is resolved region by region: the body, the header and
the footer of every section that has its own with text in it, and every cell of
every table.  A cell is named by table, row and the column where it starts.
-/

namespace Covenant.Word

def regionName (kind : Text) (numbers : List Nat) : Text :=
  Text.joinWith ":" (kind :: numbers.map Text.ofNat)

/-- The region of a header or a footer; one without text has none. -/
def partRegion (kind : Text) (index : Nat) (part : Option (List Line)) : List (Text × Text) :=
  match part with
  | some lines =>
      if lines.any fun line => !(textOfRuns line).isEmpty then
        [(regionName kind [index], textOfLines lines)]
      else []
  | none => []

/-- The regions of sections, numbered from an index on. -/
def sectionRegions : Nat → List Section → List (Text × Text)
  | _, [] => []
  | index, part :: rest =>
      partRegion "header" index part.header ++ partRegion "footer" index part.footer ++
        sectionRegions (index + 1) rest

def rowRegions (table row : Nat) (cells : List PlacedCell) : List (Text × Text) :=
  cells.filterMap fun placed =>
    match placed.cell with
    | .content lines _ => some (regionName "table" [table, row, placed.column], textOfLines lines)
    | .continued => none

def rowsRegions (table : Nat) : Nat → List (List PlacedCell) → List (Text × Text)
  | _, [] => []
  | row, cells :: rows => rowRegions table row cells ++ rowsRegions table (row + 1) rows

def tableRegions : Nat → List Table → List (Text × Text)
  | _, [] => []
  | index, table :: tables =>
      rowsRegions index 0 (placeRows [] table) ++ tableRegions (index + 1) tables

namespace Document

def partRegions (document : Document) : List (Text × Text) :=
  sectionRegions 0 document.sections ++ tableRegions 0 document.tables

def regions (document : Document) : List (Text × Text) :=
  (bodyRegion, bodyText document.body) :: document.partRegions

def displayRegions (document : Document) : List (Text × Text) :=
  (bodyRegion, displayText document.body) :: document.partRegions

end Document

/-! ### Writing regions back -/

/-- A header or footer with the text of its region. -/
def writePart (texts : List (Text × Text)) (kind : Text) (index : Nat) (part : Option (List Line)) :
    Outcome (Option (List Line)) :=
  match part, partRegion kind index part with
  | some lines, (name, _) :: _ =>
      match texts.lookup name with
      | some text => (writeText lines text).map some
      | none => .ok part
  | _, _ => .ok part

def writeSection (texts : List (Text × Text)) (index : Nat) (part : Section) : Outcome Section := do
  return {
    header := ← writePart texts "header" index part.header
    footer := ← writePart texts "footer" index part.footer }

def writeCell (texts : List (Text × Text)) (table row : Nat) (placed : PlacedCell) : Outcome Cell :=
  match placed.cell with
  | .content lines span =>
      match texts.lookup (regionName "table" [table, row, placed.column]) with
      | some text => (writeText lines text).map fun lines => .content lines span
      | none => .ok placed.cell
  | .continued => .ok .continued

def writeRows (texts : List (Text × Text)) (table : Nat) :
    Nat → List (List PlacedCell) → Outcome Table
  | _, [] => .ok []
  | row, cells :: rows => do
      let cells ← cells.mapM (writeCell texts table row)
      return cells :: (← writeRows texts table (row + 1) rows)

/-- Writes regions into the sections and tables of a body; the sections and the tables from
here on have the given numbers.  Also gives the number of the last section. -/
def writeParts (texts : List (Text × Text)) : Nat → Nat → List BodyItem → Outcome (List BodyItem × Nat)
  | part, _, [] => .ok ([], part)
  | part, table, .paragraph paragraph :: items => do
      match paragraph.sectionEnd with
      | none =>
          let (items, last) ← writeParts texts part table items
          return (.paragraph paragraph :: items, last)
      | some ended =>
          let ended ← writeSection texts part ended
          let (items, last) ← writeParts texts (part + 1) table items
          return (.paragraph { paragraph with sectionEnd := some ended } :: items, last)
  | part, table, .table rows :: items => do
      let rows ← writeRows texts table 0 (placeRows [] rows)
      let (items, last) ← writeParts texts part (table + 1) items
      return (.table rows :: items, last)

namespace Document

/-- The document with the texts of regions written back; names of no region are passed over. -/
def writeRegions (document : Document) (texts : List (Text × Text)) : Outcome Document := do
  let (body, last) ← writeParts texts 0 0 document.body
  let lastSection ← writeSection texts last document.lastSection
  match texts.lookup bodyRegion with
  | some text => return { body := ← writeBody body text, lastSection }
  | none => return { body, lastSection }

def resolve (document : Document) (resolver : Resolver) (correlationId : Text) (data : CaseData) :
    Outcome (Document × DocumentResolution) := do
  let resolution ← resolver.resolveDocument correlationId data document.regions
  return (← document.writeRegions resolution.regions, resolution)

end Document

end Covenant.Word
