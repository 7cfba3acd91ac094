import Covenant.Word.Grid

/-!
# Descriptions of documents

A document can be described by a value.  The body is a list of paragraphs, each
with its runs and perhaps a section break, and of tables with the lines of their
cells, in a number of columns; headers and footers are listed by section.  The shown form of a document
lists the runs of every paragraph.
-/

namespace Covenant.Word.Description

def itemsOf : Value → List Value
  | .list items => items
  | _ => []

def membersOf : Value → Members
  | .object members => members
  | _ => []

def textOf : Value → Text
  | .text content => content
  | _ => []

def natOf (value : Value) (usual : Nat) : Nat :=
  match value with
  | .int number => number.toNat
  | _ => usual

/-- A run: a text, or a text with its weight. -/
def readRun : Value → Outcome Run
  | .list [.text content, .bool bold] => do return { text := ← heldText content, bold := some bold }
  | .list (.text content :: _) => do return { text := ← heldText content }
  | value => do return { text := ← heldText (textOf value) }

/-- A line but the first: one run, or none for an empty line. -/
def readLine (value : Value) : Outcome Line := do
  let text ← heldText (textOf value)
  return if text.isEmpty then [] else [{ text }]

/-- The lines of a cell, a header or a footer; the first always has a run. -/
def readLines (value : Value) : Outcome (List Line) :=
  match itemsOf value with
  | [] => .ok [[]]
  | first :: rest => do
      let text ← heldText (textOf first)
      return [{ text }] :: (← rest.mapM readLine)

def readCell (value : Value) : Outcome Cell :=
  let members := membersOf value
  if (Members.get members "up").isFilled then .ok .continued
  else do
    return .content (← readLines (Members.get members "lines")) (natOf (Members.get members "span") 1)

/-- The part of a kind that a list of parts gives to a section; the last one counts. -/
def readPart (parts : List Value) (kind : Text) (index : Nat) : Outcome (Option (List Line)) :=
  let matching := parts.filter fun part =>
    let members := membersOf part
    textOf (Members.get members "kind") = kind && natOf (Members.get members "section") 0 = index
  match matching.getLast? with
  | some part => (readLines (Members.get (membersOf part) "lines")).map some
  | none => .ok none

def readSection (parts : List Value) (index : Nat) : Outcome Section := do
  return { header := ← readPart parts "header" index, footer := ← readPart parts "footer" index }

/-- Reads the items of a body, with the number of the section they belong to. -/
def readBody (parts : List Value) : Nat → List Value → Outcome (List BodyItem × Section)
  | part, [] => do return ([], ← readSection parts part)
  | part, item :: items => do
      let members := membersOf item
      match members.lookup ("rows" : Text) with
      | some rows =>
          let table ← (itemsOf rows).mapM fun row => (itemsOf row).mapM readCell
          let table := fillRows (natOf (Members.get members "cols") 0) [] table
          let (items, last) ← readBody parts part items
          return (.table table :: items, last)
      | none =>
          let runs ← (itemsOf (Members.get members "p")).mapM readRun
          if (Members.get members "break").isFilled then
            let ended ← readSection parts part
            let (items, last) ← readBody parts (part + 1) items
            return (.paragraph { runs, sectionEnd := some ended } :: items, last)
          else
            let (items, last) ← readBody parts part items
            return (.paragraph { runs } :: items, last)

def read (value : Value) : Outcome Document := do
  let members := membersOf value
  let (body, lastSection) ←
    readBody (itemsOf (Members.get members "parts")) 0 (itemsOf (Members.get members "body"))
  return { body, lastSection }

def showRun (run : Run) : Value :=
  .list [.text run.text, match run.bold with
    | some bold => .bool bold
    | none => .null]

def showLine (line : Line) : Value := .list (line.map showRun)

def showLines (lines : List Line) : Value := .list (lines.map showLine)

def showCell : Cell → Value
  | .content lines _ => showLines lines
  | .continued => showLines [[]]

def showItem : BodyItem → Value
  | .paragraph paragraph =>
      .object (("runs", showLine paragraph.runs) ::
        if paragraph.sectionEnd.isSome then [("break", .bool true)] else [])
  | .table rows => .object [("rows", .list (rows.map fun row => .list (row.map showCell)))]

def showPart (kind : Text) (index : Nat) (part : Option (List Line)) : Value :=
  .list [.text (kind ++ ':' :: Text.ofNat index), match part with
    | some lines => showLines lines
    | none => .null]

/-- Headers and footers of sections, numbered from an index on. -/
def showParts : Nat → List Section → List Value
  | _, [] => []
  | index, part :: rest =>
      showPart "header" index part.header :: showPart "footer" index part.footer ::
        showParts (index + 1) rest

def shown (document : Document) : Value :=
  .object [
    ("body", .list (document.body.map showItem)), ("parts", .list (showParts 0 document.sections))]

end Covenant.Word.Description
