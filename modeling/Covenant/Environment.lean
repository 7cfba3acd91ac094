import Covenant.Fault
import Covenant.Template.Piece

/-!
# The environment

Variables have values from outside, and a file beside the program may bind more
of them.  An entry of the file is a name, or a name and a value with an equals
sign between them; the value may stand in single or double quotes, `#` begins a
comment, and an entry that is malformed is passed over up to the end of its line.
In a value `${name}` stands for the value of another variable and
`${name:-usual}` has a value of its own for a variable that is not set.
-/

namespace Covenant

namespace EnvironmentFile

structure Entry where
  name : Text
  value : Option Text

def isLineSpace (c : Char) : Bool := isBlank c && c ≠ '\n'

def afterLine (text : Text) : Text := (text.dropWhile (· ≠ '\n')).drop 1

/-- The text up to the closing quotation mark, and what follows it.  A mark with a backslash in
front of it closes only if no other mark does. -/
def closeQuote? (mark : Char) : Text → Option (Text × Text)
  | [] => none
  | '\\' :: c :: rest =>
      if c = mark then
        match closeQuote? mark rest with
        | some (content, after) => some ('\\' :: c :: content, after)
        | none => some (['\\'], rest)
      else (closeQuote? mark (c :: rest)).map fun (content, after) => ('\\' :: content, after)
  | c :: rest =>
      if c = mark then some ([], rest)
      else (closeQuote? mark rest).map fun (content, after) => (c :: content, after)

/-- What a backslash with a letter stands for between single quotation marks. -/
def singleEscapes : List (Char × Char) := [('\\', '\\'), ('\'', '\'')]

/-- What a backslash with a letter stands for between double quotation marks. -/
def doubleEscapes : List (Char × Char) := singleEscapes ++ [
  ('"', '"'), ('a', '\x07'), ('b', '\x08'), ('f', '\x0c'), ('n', '\n'), ('r', '\r'), ('t', '\t'),
  ('v', '\x0b')]

/-- The text with its escapes resolved; any other backslash stays. -/
def unescape (escapes : List (Char × Char)) : Text → Text
  | [] => []
  | '\\' :: c :: rest =>
      match escapes.lookup c with
      | some meaning => meaning :: unescape escapes rest
      | none => '\\' :: unescape escapes (c :: rest)
  | c :: rest => c :: unescape escapes rest

/-- The text before a `#` with white space in front of it. -/
def withoutComment : Text → Text
  | [] => []
  | c :: rest =>
      if isBlank c && (rest.dropWhile isBlank).head? = some '#' then []
      else c :: withoutComment rest

/-- The value at the beginning of the text, and what follows it. -/
def readValue? : Text → Option (Text × Text)
  | '\'' :: rest =>
      (closeQuote? '\'' rest).map fun (content, after) => (unescape singleEscapes content, after)
  | '"' :: rest =>
      (closeQuote? '"' rest).map fun (content, after) => (unescape doubleEscapes content, after)
  | text =>
      let (line, after) := text.span (· ≠ '\n')
      some (Text.trimEnd (withoutComment line), after)

/-- The name at the beginning of the text, and what follows it. -/
def readName? : Text → Option (Text × Text)
  | '\'' :: rest =>
      let (name, after) := rest.span (· ≠ '\'')
      if name.isEmpty || after.isEmpty then none else some (name, after.drop 1)
  | text =>
      let (name, after) := text.span fun c => c ≠ '=' && c ≠ '#' && !isBlank c
      if name.isEmpty then none else some (name, after)

/-- What follows the word `export` and the white space after it. -/
def afterExport (text : Text) : Text :=
  if "export".toList.isPrefixOf text && (text.drop 6).head?.any isLineSpace then
    (text.drop 6).dropWhile isLineSpace
  else text

/-- What follows a line that has nothing more to say than a comment. -/
def afterComment? (text : Text) : Option Text :=
  match text.dropWhile isLineSpace with
  | [] => some []
  | '\n' :: rest => some rest
  | '#' :: rest => some (afterLine rest)
  | _ => none

/-- The entry at the beginning of the text, if it is well formed, and what follows it.  A comment
is no entry. -/
def readEntry (text : Text) : Option Entry × Text :=
  let text := afterExport text
  match text with
  | '#' :: rest => (none, afterLine rest)
  | _ =>
      match readName? text with
      | none => (none, afterLine text)
      | some (name, rest) =>
          let rest := rest.dropWhile isLineSpace
          let ending (value : Option Text) (rest : Text) : Option Entry × Text :=
            match afterComment? rest with
            | some after => (some ⟨name, value⟩, after)
            | none => (none, afterLine rest)
          match rest with
          | '=' :: rest =>
              let rest := rest.dropWhile isLineSpace
              match readValue? rest with
              | some (value, after) => ending (some value) after
              | none => (none, afterLine rest)
          | _ => ending none rest

/-- Reads entries; every one is at least a character long, so `fuel` bounds their number. -/
def entriesFrom : Nat → Text → List Entry
  | 0, _ => []
  | fuel + 1, text =>
      match text.dropWhile isBlank with
      | [] => []
      | start =>
          let (entry, rest) := readEntry start
          entry.toList ++ entriesFrom fuel rest

/-- The entries of a file, whose lines may end in any of the usual line breaks. -/
def entries (text : Text) : List Entry := entriesFrom text.length (Text.normalizeBreaks text)

/-- A reference to a variable: its name and the usual value after `:-`. -/
structure Reference where
  name : Text
  usual : Text := []

/-- The reference whose opening `${` stands in front of the text, and how many characters it
takes from there. -/
def reference? (text : Text) : Option (Reference × Nat) :=
  let (name, rest) := text.span fun c => c ≠ '\x7d' && c ≠ ':'
  match rest with
  | ':' :: '-' :: rest =>
      let (usual, rest) := rest.span (· ≠ '\x7d')
      if rest.isEmpty then none else some (⟨name, usual⟩, name.length + usual.length + 3)
  | '\x7d' :: _ => some ({ name }, name.length + 1)
  | _ => none

def Reference.recognise : Recogniser Reference := fun _ text =>
  match text with
  | '$' :: '\x7b' :: rest => (reference? rest).map fun (found, length) => (found, length + 2)
  | _ => none

def pieces (text : Text) : List (Piece Reference) := Piece.cut Reference.recognise text

def expand (resolve : Reference → Text) (text : Text) : Text :=
  Piece.substitute (fun found _ => resolve found) (pieces text)

def referredNames (file : Text) : List Text :=
  (entries file).flatMap fun entry =>
    (Found.ofPieces 0 (pieces (entry.value.getD []))).map (·.token.name)

end EnvironmentFile

/-- The variables that are set, and those that the file names, last first. -/
structure Environment where
  given : List (Text × Text)
  bound : List (Text × Option Text) := []

namespace Environment

/-- What a reference stands for.  The file counts before the variables that are set, and a name
on its own has no value. -/
def resolve (environment : Environment) (reference : EnvironmentFile.Reference) : Text :=
  match environment.bound.lookup reference.name with
  | some value => value.getD []
  | none => (environment.given.lookup reference.name).getD reference.usual

def bind (environment : Environment) (entry : EnvironmentFile.Entry) : Environment :=
  let value := entry.value.map (EnvironmentFile.expand environment.resolve)
  { environment with bound := (entry.name, value) :: environment.bound }

def withFile (environment : Environment) (file : Text) : Environment :=
  (EnvironmentFile.entries file).foldl bind environment

/-- The value of a variable.  The file counts for variables that are not set or empty, and
its last entry for a name is the one that counts. -/
def valueOf? (environment : Environment) (name : Text) : Option Text :=
  let own := environment.given.lookup name
  if own.any (!·.isEmpty) then own
  else match environment.bound.lookup name with
    | some (some value) => if value.isEmpty then own else some value
    | _ => own

def isTaken (environment : Environment) (name : Text) : Bool :=
  !(environment.given.lookup name).any (!·.isEmpty) &&
    !((environment.bound.lookup name).join.getD []).isEmpty

/-- A variable has neither a null character nor an equals sign in its name, and no null character
in its value. -/
def checkName (environment : Environment) (name : Text) : Outcome Unit :=
  if !environment.isTaken name then .ok ()
  else if name.contains '\x00' || ((environment.valueOf? name).getD []).contains '\x00' then
    .error .nullInVariable
  else if name.contains '=' then .error .badVariableName
  else .ok ()

/-- Whether the variables that the file names can be set. -/
def check (environment : Environment) : Outcome Unit :=
  (environment.bound.reverse.map (·.1)).eraseDups.forM environment.checkName

end Environment

end Covenant
