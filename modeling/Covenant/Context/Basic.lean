import Covenant.Fault
import Covenant.Naming

/-!
# Contexts

A context gives names their texts.  Names are the same when their lower-case
forms are; an entry keeps the spelling and the place of its first insertion, and
later writes change its text only.  Once frozen, a context no longer changes.
-/

namespace Covenant

/-- A name with its text; `key` is the form in which names are compared. -/
structure Entry where
  name : Text
  text : Text
  key : Text := Text.lower name
  key_eq : key = Text.lower name := by rfl

structure ContextMap where
  entries : List Entry := []
  frozen : Bool := false

namespace ContextMap

def items (context : ContextMap) : List (Text × Text) :=
  context.entries.map fun entry => (entry.name, entry.text)

def names (context : ContextMap) : List Text := context.entries.map (·.name)

def size (context : ContextMap) : Nat := context.entries.length

def entryWithKey? (key : Text) : List Entry → Option Entry
  | [] => none
  | entry :: rest => if entry.key = key then some entry else entryWithKey? key rest

def lookup (context : ContextMap) (name : Text) : Option Text :=
  (entryWithKey? (Text.lower name) context.entries).map (·.text)

def contains (context : ContextMap) (name : Text) : Bool := (context.lookup name).isSome

/-- The entries after a write: the entry of the name gets the text, or a new one is added. -/
def write (name text : Text) : List Entry → List Entry
  | [] => [{ name, text }]
  | entry :: rest =>
      if entry.key = Text.lower name then { entry with text } :: rest
      else entry :: write name text rest

/-- Gives a name its text.  Meant for contexts that are still being built. -/
def insert (context : ContextMap) (name text : Text) : ContextMap :=
  { context with entries := write name text context.entries }

/-- Gives a name its text unless it has one. -/
def insertNew (context : ContextMap) (name text : Text) : ContextMap :=
  if context.contains name then context else context.insert name text

def erase (context : ContextMap) (name : Text) : ContextMap :=
  { context with entries := context.entries.filter (·.key ≠ Text.lower name) }

/-- Writes the members of an object, one after the other. -/
def insertAll (context : ContextMap) (members : Members) : ContextMap :=
  members.foldl (fun context (name, value) => context.insert name value.stored) context

def ofMembers (members : Members) : ContextMap := insertAll {} members

/-- A context from pairs whose names have to be texts. -/
def ofPairs (pairs : List (Value × Value)) : Outcome ContextMap :=
  pairs.foldlM (fun context (name, value) => do
    return context.insert (← name.asText) value.stored) {}

/-- Adds the aliases of the given entries, each unless its name is present. -/
def addAliases (context : ContextMap) (entries : List Entry) : ContextMap :=
  entries.foldl (fun context entry =>
    match Naming.alias? entry.name with
    | some other => context.insertNew other entry.text
    | none => context) context

/-- Every name is also reachable under its spelling in the other convention. -/
def withAliases (context : ContextMap) : ContextMap := context.addAliases context.entries

def freeze (context : ContextMap) : ContextMap := { context with frozen := true }

def thaw (context : ContextMap) : ContextMap := { context with frozen := false }

/-- The context in which conditions are evaluated for an object. -/
def ofObject (members : Members) : ContextMap := (ofMembers members).withAliases

/-- The members a context shows: every text is a value. -/
def toMembers (context : ContextMap) : Members :=
  context.items.map fun (name, text) => (name, .text text)

def shown (context : ContextMap) : Text :=
  "ContextMap(" ++ (Value.object context.toMembers).shown ++ ")"

end ContextMap

end Covenant
