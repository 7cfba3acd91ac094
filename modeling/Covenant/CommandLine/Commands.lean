import Covenant.CommandLine.Arguments
import Covenant.Console.Markup
import Covenant.Template.Inventory
import Covenant.Word.Regions

/-!
# Commands

`resolve` resolves a template text against case data, `generate` a document,
`placeholders` lists the placeholders of a template, and `check` reports what
remains open in it.  A command reads files and reports what it prints, which
files it writes, and how it ends.
-/

namespace Covenant

inductive ConsoleEntry where
  | line (text : Text)
  | table (title : Text) (columns : List Text) (rows : List (List Text))
  | panel (title text : Text)

inductive Breakdown where
  | fault (fault : Fault)
  /-- A file that is not text was read as text. -/
  | undecodable
  /-- A file that is not a document was read as one. -/
  | notADocument
  | fileExists
  | notADirectory
  | isADirectory
  /-- A tag in a line for the console closes nothing. -/
  | brokenMarkup

structure Report where
  stdout : Text := []
  console : List ConsoleEntry := []
  written : List File := []
  exitCode : Nat := 0
  breakdown : Option Breakdown := none

structure Workplace where
  settings : Settings := {}
  today : Date
  correlationId : Text
  files : List File

namespace Report

def withEntry (report : Report) (entry : ConsoleEntry) : Report :=
  { report with console := report.console ++ [entry] }

def brokenOff (report : Report) (breakdown : Breakdown) : Report :=
  { report with exitCode := 1, breakdown := some breakdown }

def plain (report : Report) (markup : Text) : Except Report Text :=
  match Markup.plain? markup with
  | .ok (some text) => .ok text
  | .ok none => .error (report.brokenOff .brokenMarkup)
  | .error fault => .error (report.brokenOff (.fault fault))

def withLine (report : Report) (line : Text) : Except Report Report := do
  return report.withEntry (.line (← report.plain line))

/-- The report with a table whose title and cells may hold markup. -/
def withTable (report : Report) (title : Text) (columns : List Text) (rows : List (List Text)) :
    Except Report Report := do
  let title ← report.plain title
  return report.withEntry (.table title columns (← rows.mapM (·.mapM report.plain)))

/-- The report with a panel whose text may hold markup. -/
def withPanel (report : Report) (title text : Text) : Except Report Report := do
  return report.withEntry (.panel title (← report.plain text))

end Report

/-- Counts with the greatest first; equal ones stay in order. -/
def byCount (counts : List (Text × Nat)) : List (Text × Nat) :=
  counts.mergeSort fun first second => second.2 ≤ first.2

/-- The report with the placeholders that remained open, if any did. -/
def reportUnresolved (report : Report) (unresolved : List (Text × Nat)) : Except Report Report :=
  if unresolved.isEmpty then .ok report
  else
    report.withTable "Unresolved Placeholders" ["Placeholder", "Count"]
      ((byCount unresolved).map fun (name, count) => [Markup.escape name, Text.ofNat count])

def reportDiagnostics (report : Report) (diagnostics : Diagnostics) : Except Report Report := do
  if diagnostics.isOk then report.withLine "[green]No problems found[/green]"
  else
    let report ← reportUnresolved report diagnostics.unresolved
    diagnostics.warnings.foldlM (fun report warning =>
      report.withLine ("[yellow]Warning:[/yellow] " ++ Markup.escape warning)) report

namespace Workplace

def readText (place : Workplace) (report : Report) (path : Text) : Except Report Text :=
  match Files.target place.files path with
  | .file (.text content) => .ok (Text.normalizeBreaks content)
  | .file _ => .error (report.brokenOff .undecodable)
  | _ => .error (report.brokenOff .isADirectory)

def readDocument (place : Workplace) (report : Report) (path : Text) : Except Report Word.Document :=
  match Files.target place.files path with
  | .file (.document document) => .ok document
  | _ => .error (report.brokenOff .notADocument)

/-- The text of a template; a document gives the texts of its regions. -/
def readTemplate (place : Workplace) (report : Report) (path : Text) : Except Report Text :=
  if Text.lower (Path.ending path) = ".docx" then do
    return Text.unlines ((← place.readDocument report path).displayRegions.map (·.2))
  else place.readText report path

inductive LoadFailure where
  | syntaxFault (message : Text)
  | fault (fault : Fault)

def parseCase (place : Workplace) (text : Text) : Except LoadFailure CaseData :=
  match Value.ofJson text with
  | .error (.fault fault remaining) => .error (.syntaxFault (fault.describe text remaining))
  | .error (.tooManyDigits count) => .error (.fault (.tooManyDigits count))
  | .ok value => (CaseData.ofValue place.today value).mapError .fault

/-- Whether a fault in case data is reported; any other breaks the command off. -/
def isReported : Fault → Bool
  | .notText _ | .notObject _ | .noWord | .infinityToInteger | .integerTooLarge => false
  | _ => true

def refuseCase (report : Report) (path message : Text) : Except Report CaseData :=
  match report.withLine ("[red]Could not read case data " ++ Path.shown path ++ ": " ++
      Markup.escape message ++ "[/red]") with
  | .ok report => .error { report with exitCode := 1 }
  | .error report => .error report

/-- Loads case data; what is wrong with them is reported. -/
def loadCase (place : Workplace) (report : Report) (path : Text) : Except Report CaseData := do
  match Files.target place.files path with
  | .file (.text content) =>
      match place.parseCase (Text.normalizeBreaks content) with
      | .ok data => return data
      | .error (.syntaxFault message) => refuseCase report path message
      | .error (.fault fault) =>
          if isReported fault then refuseCase report path fault.message
          else .error (report.brokenOff (.fault fault))
  | _ => refuseCase report path "not a text in UTF-8"

/-- An outcome, with its fault as the reason why the command broke off. -/
def orBreakOff {α : Type} (report : Report) (outcome : Outcome α) : Except Report α :=
  outcome.mapError fun fault => report.brokenOff (.fault fault)

/-- The report with a file written, for which directories are made as needed. -/
def write (place : Workplace) (report : Report) (path : Text) (content : FileContent) :
    Except Report Report :=
  let reached := Path.resolve path
  let isFile (path : List Text) : Bool := (Files.file? place.files path).isSome
  if (Files.ancestors reached.dropLast).any isFile then .error (report.brokenOff .notADirectory)
  else if isFile reached.dropLast then .error (report.brokenOff .fileExists)
  else if Files.isDirectory place.files reached then .error (report.brokenOff .isADirectory)
  else .ok { report with written := report.written ++ [⟨reached, content⟩] }

def resolver (place : Workplace) (label : Option Text) : Resolver :=
  { settings := place.settings, label }

def reportOpen (report : Report) (diagnostics : Diagnostics) : Except Report Report :=
  if diagnostics.isOk then .ok report else reportDiagnostics report diagnostics

def resolve (place : Workplace) (template data : Text) (output label : Option Text) :
    Except Report Report := do
  let report : Report := {}
  let data ← place.loadCase report data
  let text ← place.readText report template
  let resolution ← orBreakOff report <|
    (place.resolver label).resolveText place.correlationId data text
  match output with
  | some path =>
      let report ← place.write report path (.text resolution.text)
      let report ← report.withLine ("[green]Written to " ++ Path.shown path ++ "[/green]")
      reportOpen report resolution.diagnostics
  | none =>
      let report := { report with stdout := Control.printed (resolution.text ++ ['\n']) }
      reportOpen report resolution.diagnostics

def generatedText (path : Text) (resolution : DocumentResolution) : Text :=
  "[bold]Generated:[/bold] " ++ Path.shown path ++
  "\nRegions: " ++ Text.ofNat resolution.regions.length ++
  "\nRequest: " ++ resolution.diagnostics.correlationId

def generate (place : Workplace) (template data output : Text) (label : Option Text) :
    Except Report Report := do
  let report : Report := {}
  let data ← place.loadCase report data
  let document ← place.readDocument report template
  let (written, resolution) ← orBreakOff report <|
    document.resolve (place.resolver label) place.correlationId data
  let report ← place.write report output (.document written)
  let report ← report.withPanel "Document Generated" (generatedText output resolution)
  reportOpen report resolution.diagnostics

def byName (uses : List PlaceholderUse) : List PlaceholderUse :=
  uses.mergeSort fun first second => Text.le (Text.lower first.name) (Text.lower second.name)

def useRow (use : PlaceholderUse) : List Text := [
  Markup.escape use.name, Text.ofNat use.occurrences,
  Text.joinWith ", " (use.styles.map BracketStyle.label),
  Text.joinWith ", " (use.modifiers.map (·.word))]

def placeholders (place : Workplace) (template : Text) : Except Report Report := do
  let report : Report := {}
  let uses := PlaceholderUse.ofText (← place.readTemplate report template)
  if uses.isEmpty then report.withLine "[yellow]No placeholders found[/yellow]"
  else
    report.withTable ("Placeholders in " ++ Path.name template)
      ["Name", "Count", "Styles", "Modifiers"] ((byName uses).map useRow)

def check (place : Workplace) (template data : Text) : Except Report Report := do
  let report : Report := {}
  let data ← place.loadCase report data
  let text ← place.readTemplate report template
  let resolution ← orBreakOff report <|
    (place.resolver none).resolveText place.correlationId data text
  let report ← reportDiagnostics report resolution.diagnostics
  return if resolution.diagnostics.isOk then report else { report with exitCode := 1 }

/-- Runs a command; a report that broke off is a report too. -/
def run (place : Workplace) (command : Command) : Report :=
  let outcome := match command with
    | .resolve template data output label => place.resolve template data output label
    | .generate template data output label => place.generate template data output label
    | .placeholders template => place.placeholders template
    | .check template data => place.check template data
  match outcome with
  | .ok report => report
  | .error report => report

/-- Answers a call.  Help is left to the program; the version is one line. -/
def answer (place : Workplace) : Call → Report
  | .help => {}
  | .version => { stdout := "cli, version 1.0.0\n" }
  | .command command => place.run command

end Workplace

end Covenant
