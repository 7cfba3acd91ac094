import Covenant.CommandLine.Commands
import Covenant.Value.Writer
import Covenant.Word.Description
import Std.Time.DateTime.Timestamp

/-!
# The program

Reads the files that a call may name, runs the call on them, prints its report
and writes its files.  A document is stored as the JSON text of its description.
Everything but reading and printing is decided by `Workplace.answer`.
-/

open Covenant

namespace Covenant.Program

/-- The texts in an argument that may name a file. -/
def pathsIn (argument : Text) : List Text :=
  [argument, argument.drop 2] ++ ((Text.splitFirst? "=" argument).map (·.2)).toList

def document? (text : Text) : Option Word.Document :=
  match Value.ofJson text with
  | .ok description => (Word.Description.read description).toOption
  | .error _ => none

def contentOf (path : Text) (bytes : ByteArray) : FileContent :=
  match String.fromUTF8? bytes with
  | none => .unreadable
  | some text =>
      if Text.lower (Path.ending path) = ".docx" then
        ((document? text.toList).map FileContent.document).getD .unreadable
      else .text text.toList

/-- The file at a path, if there is one.  A directory is told by a nameless file in it. -/
def load (path : Text) : IO (List File) := do
  try
    let bytes ← IO.FS.readBinFile (String.ofList path)
    return [{ path := Path.resolve path, content := contentOf path bytes }]
  catch
    | .inappropriateType .. =>
        return [{ path := Path.resolve path ++ [[]], content := .unreadable }]
    | _ => return []

/-- The files and directories that arguments lead to and through. -/
def loadAll (arguments : List Text) : IO (List File) := do
  let paths := (arguments.flatMap pathsIn).filter (!·.isEmpty)
  let above := paths.flatMap fun path =>
    (Files.ancestors (Path.parts path)).map fun parts =>
      Text.joinWith "/" (Path.start path ++ parts)
  return (← (paths ++ above.filter (!·.isEmpty)).mapM load).flatten

/-- The environment's variables and the file of settings in the working directory. -/
def environment : IO Environment := do
  let file : Text ← try pure (← IO.FS.readFile ".env").toList catch _ => pure []
  let names := Settings.variableNames ++ EnvironmentFile.referredNames file
  let given ← names.filterMapM fun name => do
    return (← IO.getEnv (String.ofList name)).map fun value => (name, value.toList)
  return Environment.withFile { given } file

def today : IO Date := do
  let now ← Std.Time.Timestamp.now
  let epoch : Date := { year := 1970, month := 1, day := 1 }
  return (epoch.addDays? (now.toSecondsSinceUnixEpoch.val / 86400)).getD epoch

def correlationId : IO Text := do
  return Text.ofNatHex 12 (← IO.rand 0 (Nat.pow 2 48 - 1))

def entryText : ConsoleEntry → Text
  | .line text => text
  | .table title columns rows =>
      Text.unlines (title :: (columns :: rows).map (Text.joinWith ['\t']))
  | .panel title text => Text.unlines [title, text]

def breakdownText : Breakdown → Text
  | .fault fault => fault.message
  | .undecodable => "A file is not text in UTF-8"
  | .notADocument => "A file is not a document"
  | .fileExists => "A file is in the place of a directory"
  | .notADirectory => "A path leads through a file"
  | .isADirectory => "A directory is in the place of a file"
  | .brokenMarkup => "A closing tag has nothing to close"

def write (file : File) : IO Unit := do
  let name := Text.joinWith "/" file.path
  let folder := Text.joinWith "/" file.path.dropLast
  if !folder.isEmpty then IO.FS.createDirAll (String.ofList folder)
  let content := match file.content with
    | .text text => text
    | .document document => (Word.Description.shown document).toJson
    | .unreadable => []
  IO.FS.writeFile (String.ofList name) (String.ofList content)

def print (report : Report) : IO UInt32 := do
  report.written.forM write
  IO.print (String.ofList report.stdout)
  report.console.forM fun entry => IO.println (String.ofList (entryText entry))
  report.breakdown.forM fun breakdown => IO.eprintln (String.ofList (breakdownText breakdown))
  return report.exitCode.toUInt32

def usage : Text := Text.unlines [
  "Usage: covenant [--verbose] COMMAND TEMPLATE [OPTIONS]",
  "",
  "  resolve TEMPLATE --data FILE [--output FILE] [--prefix LABEL]",
  "  generate TEMPLATE --data FILE --output FILE [--prefix LABEL]",
  "  placeholders TEMPLATE",
  "  check TEMPLATE --data FILE"]

end Covenant.Program

def main (arguments : List String) : IO UInt32 := do
  let arguments := arguments.map (·.toList)
  let files ← Program.loadAll arguments
  match readCall files arguments, Settings.load (← Program.environment) with
  | .error fault, _ =>
      IO.eprintln (String.ofList ("Error: " ++ fault.message))
      return 2
  | _, .error fault =>
      IO.eprintln (String.ofList fault.message)
      return 1
  | .ok .help, _ =>
      IO.println (String.ofList Program.usage)
      return 0
  | .ok call, .ok settings =>
      let place : Workplace := {
        settings, files, today := ← Program.today, correlationId := ← Program.correlationId }
      Program.print (place.answer call)
