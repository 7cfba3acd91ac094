import Covenant.CommandLine.Files

/-!
# Arguments

A call names a command, its options and its template.  An option takes its value
from the next argument, from behind an equals sign (`--data=c.json`), or, for
one letter, from the rest of the argument (`-dc.json`).  Two dashes end the
options.  A call that does not fit is refused before anything is read.
-/

namespace Covenant

inductive OptionKey where
  | data
  | output
  | label
  | verbose
  | help
  | version
deriving DecidableEq

structure OptionForm where
  key : OptionKey
  long : Text
  short : Option Char := none
  takesValue : Bool := true

inductive UsageFault where
  | noSuchOption (name : Text)
  | noValue (name : Text)
  | unexpectedValue (name : Text)
  | missingCommand
  | noSuchCommand (name : Text)
  | missingArgument
  | extraArgument (argument : Text)
  | missingOption (name : Text)
  | missingFile (path : Text)
  | isDirectory (path : Text)

namespace UsageFault

def message : UsageFault → Text
  | noSuchOption name => "No such option: " ++ name
  | noValue name => "Option '" ++ name ++ "' requires an argument."
  | unexpectedValue name => "Option '" ++ name ++ "' does not take a value."
  | missingCommand => "Missing command."
  | noSuchCommand name => "No such command '" ++ name ++ "'."
  | missingArgument => "Missing argument 'TEMPLATE'."
  | extraArgument argument => "Got unexpected extra argument (" ++ argument ++ ")"
  | missingOption name => "Missing option '" ++ name ++ "'."
  | missingFile path => "File '" ++ path ++ "' does not exist."
  | isDirectory path => "File '" ++ path ++ "' is a directory."

end UsageFault

/-- Options with their values, and the arguments that are no options. -/
structure ReadArguments where
  options : List (OptionKey × Text) := []
  arguments : List Text := []

namespace ReadArguments

def withOption (read : ReadArguments) (key : OptionKey) (value : Text) : ReadArguments :=
  { read with options := (key, value) :: read.options }

/-- The value of an option; the last one given counts. -/
def value? (read : ReadArguments) (key : OptionKey) : Option Text :=
  (read.options.reverse.find? fun (other, _) => other = key).map (·.2)

end ReadArguments

/-- What the first argument means for options. -/
inductive ArgumentKind where
  /-- Flags, and an option with its value if there is one attached. -/
  | options (flags : List OptionKey) (valued : Option (OptionKey × Text))
  | needsNext (flags : List OptionKey) (key : OptionKey) (name : Text)
  | plain

def readLetters (forms : List OptionForm) : Text → Except UsageFault ArgumentKind
  | [] => .ok (.options [] none)
  | c :: rest =>
      match forms.find? fun form => form.short = some c with
      | none => .error (.noSuchOption ['-', c])
      | some form =>
          if form.takesValue then
            .ok (if rest.isEmpty then .needsNext [] form.key ['-', c]
              else .options [] (some (form.key, rest)))
          else do
            match ← readLetters forms rest with
            | .options flags valued => return .options (form.key :: flags) valued
            | .needsNext flags key name => return .needsNext (form.key :: flags) key name
            | .plain => return .plain

/-- Name and attached value of an argument that may be a long option. -/
def splitValue (argument : Text) : Text × Option Text :=
  match Text.splitFirst? "=" argument with
  | some (name, value) => (name, some value)
  | none => (argument, none)

def kindOfArgument (forms : List OptionForm) (argument : Text) : Except UsageFault ArgumentKind :=
  match argument with
  | '-' :: c :: rest =>
      let (name, attached) := splitValue argument
      match forms.find? fun form => form.long = name, attached with
      | some form, some value =>
          if form.takesValue then .ok (.options [] (some (form.key, value)))
          else .error (.unexpectedValue name)
      | some form, none =>
          .ok (if form.takesValue then .needsNext [] form.key name else .options [form.key] none)
      | none, _ => if c = '-' then .error (.noSuchOption name) else readLetters forms (c :: rest)
  | _ => .ok .plain

def addFlags (read : ReadArguments) (flags : List OptionKey) : ReadArguments :=
  flags.foldr (fun key read => read.withOption key []) read

/-- Reads arguments.  With `mixed`, options may follow other arguments; without it the first
of those ends the options. -/
def readArguments (forms : List OptionForm) (mixed : Bool) :
    List Text → Except UsageFault ReadArguments
  | [] => .ok {}
  | argument :: rest =>
      if argument = ['-', '-'] then .ok { arguments := rest }
      else do
        match ← kindOfArgument forms argument with
        | .plain =>
            if mixed then
              let read ← readArguments forms mixed rest
              return { read with arguments := argument :: read.arguments }
            else return { arguments := argument :: rest }
        | .options flags valued =>
            let read ← readArguments forms mixed rest
            return addFlags (match valued with
              | some (key, value) => read.withOption key value
              | none => read) flags
        | .needsNext flags key name =>
            match rest with
            | [] => .error (.noValue name)
            | value :: rest =>
                let read ← readArguments forms mixed rest
                return addFlags (read.withOption key value) flags

/-! ### Commands -/

inductive Command where
  | resolve (template data : Text) (output label : Option Text)
  | generate (template data output : Text) (label : Option Text)
  | placeholders (template : Text)
  | check (template data : Text)

inductive Call where
  | help
  | version
  | command (command : Command)

def helpForm : OptionForm := { key := .help, long := "--help", takesValue := false }

def programForms : List OptionForm := [
  { key := .verbose, long := "--verbose", short := 'v', takesValue := false },
  { key := .version, long := "--version", takesValue := false }, helpForm]

def dataForm : OptionForm := { key := .data, long := "--data", short := 'd' }

def outputForm : OptionForm := { key := .output, long := "--output", short := 'o' }

def labelForm : OptionForm := { key := .label, long := "--prefix" }

def checkFile (files : List File) (path : Text) : Except UsageFault Unit :=
  match Files.target files path with
  | .missing => .error (.missingFile path)
  | .directory => .error (.isDirectory path)
  | .file _ => .ok ()

/-- Checks that a path does not lead to a directory. -/
def checkOutput (files : List File) (path : Text) : Except UsageFault Unit :=
  match Files.target files path with
  | .directory => .error (.isDirectory path)
  | _ => .ok ()

def onlyArgument (read : ReadArguments) : Except UsageFault Text :=
  match read.arguments with
  | [] => .error .missingArgument
  | [argument] => .ok argument
  | _ :: argument :: _ => .error (.extraArgument argument)

/-- The value of an option that has to be given. -/
def required (read : ReadArguments) (form : OptionForm) : Except UsageFault Text :=
  match read.value? form.key with
  | some value => .ok value
  | none => .error (.missingOption form.long)

/-- The template of a call, which has to be a file. -/
def templateOf (files : List File) (read : ReadArguments) : Except UsageFault Text := do
  let template ← onlyArgument read
  checkFile files template
  return template

/-- The case data of a call, which have to be a file. -/
def dataOf (files : List File) (read : ReadArguments) : Except UsageFault Text := do
  let data ← required read dataForm
  checkFile files data
  return data

/-- How a command is read: its options, and what they make of it. -/
structure CommandForm where
  name : Text
  options : List OptionForm
  read : List File → ReadArguments → Except UsageFault Command

def resolveForm : CommandForm where
  name := "resolve"
  options := [dataForm, outputForm, labelForm]
  read files read := do
    let template ← templateOf files read
    let data ← dataOf files read
    let output := read.value? .output
    output.forM (checkOutput files)
    return .resolve template data output (read.value? .label)

def generateForm : CommandForm where
  name := "generate"
  options := [dataForm, outputForm, labelForm]
  read files read := do
    let template ← templateOf files read
    let data ← dataOf files read
    let output ← required read outputForm
    checkOutput files output
    return .generate template data output (read.value? .label)

def placeholdersForm : CommandForm where
  name := "placeholders"
  options := []
  read files read := do return .placeholders (← templateOf files read)

def checkForm : CommandForm where
  name := "check"
  options := [dataForm]
  read files read := do return .check (← templateOf files read) (← dataOf files read)

def commandForms : List CommandForm := [resolveForm, generateForm, placeholdersForm, checkForm]

/-- Help and version are answered whatever else is given; of both, the first one counts. -/
def answered? (read : ReadArguments) : Option Call :=
  read.options.findSome? fun (key, _) =>
    match key with
    | .help => some .help
    | .version => some .version
    | _ => none

def readCommand (files : List File) (name : Text) (arguments : List Text) : Except UsageFault Call :=
  match commandForms.find? fun form => form.name = name with
  | none => .error (.noSuchCommand name)
  | some form => do
      let read ← readArguments (helpForm :: form.options) true arguments
      match answered? read with
      | some call => return call
      | none => return .command (← form.read files read)

def readCall (files : List File) (arguments : List Text) : Except UsageFault Call := do
  let read ← readArguments programForms false arguments
  match answered? read, read.arguments with
  | some call, _ => return call
  | none, [] => .error .missingCommand
  | none, name :: rest => readCommand files name rest

end Covenant
