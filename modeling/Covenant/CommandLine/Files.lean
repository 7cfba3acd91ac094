import Covenant.Word.Document

/-!
# Files

The files that commands read and write.  A path is a text with slashes; single points
and double slashes in it do not matter.  It leads to a list of names: those of the
directories from the working directory down, and that of the file.  The list starts
with a slash for a path from the root, and with two points for each step out of the
working directory.  A directory is there when a file is in it.
-/

namespace Covenant

inductive FileContent where
  | text (content : Text)
  | document (document : Word.Document)
  | unreadable

structure File where
  path : List Text
  content : FileContent

namespace Path

def root : Text := ['/']

def up : Text := ['.', '.']

def parts (path : Text) : List Text :=
  (Text.splitAt '/' path).filter fun part => !part.isEmpty && part ≠ ['.']

def isAbsolute (path : Text) : Bool := path.head? = some '/'

def shown (path : Text) : Text :=
  let names := Text.joinWith "/" (parts path)
  if isAbsolute path then '/' :: names else if names.isEmpty then ['.'] else names

/-- The last name of a path. -/
def name (path : Text) : Text := ((parts path).getLast?).getD []

/-- The ending of a file's name from its last point on, if neither the first nor the last
character is that point. -/
def ending (path : Text) : Text :=
  let name := name path
  let after := (name.reverse.takeWhile (· ≠ '.')).reverse
  let before := name.take (name.length - after.length - 1)
  if after.length = name.length || after.isEmpty || before.isEmpty then [] else '.' :: after

def start (path : Text) : List Text := if isAbsolute path then [root] else []

/-- The directory or file that a part of a path leads to. -/
def enter (reached : List Text) (part : Text) : List Text :=
  if part ≠ up then reached ++ [part]
  else match reached.getLast? with
    | none => [up]
    | some last =>
        if last = up then reached ++ [up] else if last = root then reached else reached.dropLast

def resolve (path : Text) : List Text := (parts path).foldl enter (start path)

def endsAsDirectory (path : Text) : Bool :=
  match (Text.splitAt '/' path).getLast? with
  | some last => last.isEmpty || last = ['.'] || last = up
  | none => false

def isInside (names : List Text) : Bool := names.head? ≠ some root && names.head? ≠ some up

end Path

inductive PathTarget where
  | missing
  | directory
  | file (content : FileContent)

namespace Files

def isDirectory (files : List File) (path : List Text) : Bool :=
  path.all (· = Path.up) || path = [Path.root] ||
    files.any fun file => path.isPrefixOf file.path && path ≠ file.path

def file? (files : List File) (path : List Text) : Option FileContent :=
  (files.find? fun file => file.path = path).map (·.content)

/-- Follows the parts of a path; it goes on from directories only. -/
def follow? (files : List File) : List Text → List Text → Option (List Text)
  | reached, [] => some reached
  | reached, part :: rest =>
      if isDirectory files reached then follow? files (Path.enter reached part) rest else none

def target (files : List File) (path : Text) : PathTarget :=
  if path.isEmpty then .missing
  else match follow? files (Path.start path) (Path.parts path) with
    | none => .missing
    | some reached =>
        if isDirectory files reached then .directory
        else match file? files reached with
          | some content => if Path.endsAsDirectory path then .missing else .file content
          | none => .missing

/-- The directories that a path goes through, from the working directory down. -/
def ancestors : List Text → List (List Text)
  | [] => []
  | name :: rest => [] :: (ancestors rest).map (name :: ·)

end Files

end Covenant
