import Covenant.Text.Blank
import Covenant.Text.Digit
import Covenant.Word.Document

/-!
# The body as text

In the text of the body every paragraph is a line, and a table is a line with a
marker.  Resolved text is cut at the markers that are left, and each piece goes
to the paragraphs between the same tables, so text never moves across a table.
A table whose marker is gone is taken out of the document.
-/

namespace Covenant.Word

/-- A body cut at its tables: the paragraphs before the first table, and every table with
the paragraphs after it. -/
structure BodyLayout where
  first : List Paragraph
  rest : List (Table × List Paragraph)

namespace BodyLayout

def ofBody : List BodyItem → BodyLayout
  | [] => ⟨[], []⟩
  | .paragraph paragraph :: items =>
      let layout := ofBody items
      { layout with first := paragraph :: layout.first }
  | .table table :: items =>
      let layout := ofBody items
      ⟨[], (table, layout.first) :: layout.rest⟩

def tableCount (layout : BodyLayout) : Nat := layout.rest.length

end BodyLayout

def markerEdge : Char := '\uE000'

def markerName : Text := "TABLE:"

def marker (index : Nat) : Text :=
  markerEdge :: markerName ++ Text.ofNat index ++ [markerEdge]

/-- Marker and paragraphs of the tables from an index on. -/
def markedLines : Nat → List (Table × List Paragraph) → List Text
  | _, [] => []
  | index, (_, paragraphs) :: rest =>
      marker index :: paragraphs.map (·.text) ++ markedLines (index + 1) rest

/-- The text of the body with markers for its tables. -/
def bodyText (body : List BodyItem) : Text :=
  let layout := BodyLayout.ofBody body
  Text.unlines (layout.first.map (·.text) ++ markedLines 0 layout.rest)

/-- The text of the body without its tables, for display. -/
def displayText (body : List BodyItem) : Text :=
  Text.unlines <| body.filterMap fun
    | .paragraph paragraph => some paragraph.text
    | .table _ => none

/-- The digits in a line that holds nothing but a marker. -/
def markerDigits? (line : Text) : Option Text := do
  let c :: rest := Text.trim line | none
  let (name, rest) := rest.splitAt markerName.length
  let digits := rest.takeWhile isDigit
  if c = markerEdge && name = markerName && !digits.isEmpty && rest.drop digits.length = [markerEdge]
  then some digits else none

/-- The index of the table whose marker a line holds. -/
def markerIndex? (line : Text) : Outcome (Option Nat) :=
  match markerDigits? line with
  | some digits => (Value.integerOfText digits).map fun index => some index.toNat
  | none => .ok none

/-- Text cut at table markers: the lines before the first, and every table kept with the
lines after it. -/
structure BodyPieces where
  first : List Text
  rest : List (Nat × List Text)

/-- Cuts lines at the markers of tables below `count`.  A marker counts only if its index
exceeds that of the one before; any other marker is dropped. -/
def cutLines (count : Nat) : Option Nat → List Text → Outcome BodyPieces
  | _, [] => .ok ⟨[], []⟩
  | kept, line :: lines => do
      match ← markerIndex? line with
      | none =>
          let pieces ← cutLines count kept lines
          return { pieces with first := line :: pieces.first }
      | some index =>
          if index < count && kept.all (· < index) then
            let pieces ← cutLines count (some index) lines
            return ⟨[], (index, pieces.first) :: pieces.rest⟩
          else cutLines count kept lines

def cutBody (count : Nat) (text : Text) : Outcome BodyPieces := cutLines count none (Text.lines text)

/-- Writes a piece into the paragraphs at its place.  Where there are none, a new paragraph
is made unless the piece is blank. -/
def fillPlace (paragraphs : List Paragraph) (lines : List Text) : Outcome (List BodyItem) := do
  let paragraphs :=
    if paragraphs.isEmpty && !(lines = [] || lines = [[]]) then [({ runs := [] } : Paragraph)]
    else paragraphs
  return (← writeLines paragraphs lines).map .paragraph

/-- Writes pieces between the tables that are kept.  `paragraphs` are those at the current
place, `lines` the piece for it, and `index` is the index of the next table. -/
def writePieces : Nat → List Paragraph → List Text → List (Nat × List Text) →
    List (Table × List Paragraph) → Outcome (List BodyItem)
  | _, paragraphs, lines, _, [] => fillPlace paragraphs lines
  | index, paragraphs, lines, pieces, (table, after) :: rest =>
      match pieces with
      | [] => writePieces (index + 1) (paragraphs ++ after) lines [] rest
      | (kept, next) :: more =>
          if kept = index then do
            let before ← fillPlace paragraphs lines
            return before ++ .table table :: (← writePieces (index + 1) after next more rest)
          else writePieces (index + 1) (paragraphs ++ after) lines pieces rest

def writeBody (body : List BodyItem) (text : Text) : Outcome (List BodyItem) := do
  let layout := BodyLayout.ofBody body
  let pieces ← cutBody layout.tableCount text
  writePieces 0 layout.first pieces.first pieces.rest layout.rest

end Covenant.Word
