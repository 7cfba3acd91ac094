import Covenant.Collection.Wording
import Covenant.Naming

/-!
# Collections

A collection gives the items that a loop repeats its text for: some of the
children of a case, or the records of a list stored with the case.  Every item
has variables, named by the stem of the collection and the name of a field.
-/

namespace Covenant

/-- A variable of a record: how its name ends, the member it comes from and the kind of its
value. -/
structure ItemField where
  name : Text
  source : Text
  kind : FieldKind := .plain
  /-- The code that points at a member with free text. -/
  otherCode : Text := "anders"
  /-- The member with the free text; by default the source with `Anders` after it. -/
  otherSource : Text := []

def ItemField.companion (field : ItemField) : Text :=
  if field.otherSource.isEmpty then field.source ++ "Anders" else field.otherSource

inductive ChildSelection where
  | all
  | minor
  | fromMarriage
  | beforeMarriage
deriving DecidableEq

namespace ChildSelection

/-- The children born on one side of the marriage date; without that date the answer given
in the case decides for all of them. -/
def byMarriage (data : CaseData) (isIncluded : Date → Date → Bool) (answer : Value) : List Child :=
  match data.marriageDate with
  | some marriage => data.children.filter fun child => child.birthDate.any (isIncluded marriage)
  | none => if answer.isFilled then data.children else []

def children (settings : Settings) (data : CaseData) : ChildSelection → List Child
  | all => data.children
  | minor => data.minors settings.maturityAge
  | fromMarriage =>
      byMarriage data (fun marriage birth => !birth.isBefore marriage) data.hasChildrenFromMarriage
  | beforeMarriage =>
      byMarriage data (fun marriage birth => birth.isBefore marriage) data.hasChildrenBeforeMarriage

end ChildSelection

inductive CollectionSource where
  | children (selection : ChildSelection)
  /-- Records with the given fields, stored under the name of the collection or another name. -/
  | records (fields : List ItemField) (otherNames : List Text)

/-- The singular and plural form of a word that depends on the number of items. -/
structure GrammarPair where
  singular : Text
  plural : Text

namespace GrammarPair

def name (pair : GrammarPair) : Text := pair.singular ++ '/' :: pair.plural

def form (pair : GrammarPair) (count : Nat) : Text := if 1 < count then pair.plural else pair.singular

end GrammarPair

structure Collection where
  name : Text
  stem : Text
  source : CollectionSource
  grammarPairs : List GrammarPair := []

inductive Item where
  | child (child : Child)
  | record (members : Members)

namespace Collection

/-- The value stored last under one of the keys of a source, compared in lower case. -/
def storedUnder? (key : Text) (names : List (Text × Value)) : Option Value :=
  (names.reverse.find? fun (name, _) => name = key).map (·.2)

/-- The first value that is given under the keys in order. -/
def firstStored? (keys : List Text) (names : List (Text × Value)) : Option Value :=
  keys.findSome? fun key => (storedUnder? key names).filter fun value => !value.isAbsent

/-- The lower-case names of keyed values, all of which have to be texts. -/
def lowerNames (pairs : KeyedValues) : Outcome (List (Text × Value)) :=
  pairs.mapM fun (key, value) => do return (Text.lower (← key.asText), value)

/-- The stored value of a collection of records: from the stored collections, from the
fields of the case, or from the names around it. -/
def storedValue? (collection : Collection) (otherNames : List Text) (data : CaseData)
    (surroundings : Members) : Outcome (Option Value) := do
  let keys := (collection.name :: otherNames).map Text.lower
  match firstStored? keys (← lowerNames data.collections) with
  | some value => return some value
  | none =>
      match firstStored? keys (← lowerNames data.fields) with
      | some value => return some value
      | none =>
          return firstStored? keys
            (surroundings.map fun (name, value) => (Text.lower name, value))

/-- The list in a stored value; text holds it in JSON.  Anything else stands for no items. -/
def listIn (stored : Value) : Outcome (List Value) :=
  match stored with
  | .list items => .ok items
  | .text json =>
      match Value.ofJson json with
      | .ok (.list items) => .ok items
      | .error (.tooManyDigits count) => .error (.tooManyDigits count)
      | _ => .ok []
  | _ => .ok []

def recordsOf (items : List Value) : List Item :=
  items.filterMap fun
    | .object members => some (.record members)
    | _ => none

/-- The items of a collection.  `surroundings` are names in which records may be stored. -/
def items (settings : Settings) (data : CaseData) (surroundings : Members)
    (collection : Collection) : Outcome (List Item) :=
  match collection.source with
  | .children selection => .ok ((selection.children settings data).map .child)
  | .records _ otherNames => do
      match ← collection.storedValue? otherNames data surroundings with
      | some stored => return recordsOf (← listIn stored)
      | none => return []

def childValues (stem : Text) (data : CaseData) (child : Child) : Outcome Members := do
  let callName ← callNameOf child.callName child.firstNames
  let surname ← Wording.surname child.insertion child.surname
  let fullName ← child.fullName
  let age := (child.age? data.ageDate).map Text.ofInt
  return [
    (stem ++ "VOORNAMEN", child.firstNames),
    (stem ++ "ACHTERNAAM", .text surname),
    (stem ++ "NAAM", .text fullName),
    (stem ++ "GEBOORTEDATUM", .text (Wording.date? child.birthDate)),
    (stem ++ "GEBOORTEPLAATS", child.birthPlace),
    (stem ++ "ROEPNAAM", callName),
    (stem ++ "LEEFTIJD", .text (age.getD [])),
    (stem ++ "ERKENNINGSDATUM", .text (Wording.date? child.recognitionDate))]

/-- Whether a value is the code that points at free text. -/
def isOther (field : ItemField) : Value → Bool
  | .text content => Text.lower (Text.trim content) = field.otherCode
  | _ => false

def fieldValue (settings : Settings) (data : CaseData) (record : Members) (field : ItemField) :
    Outcome Text :=
  let stored := record.get field.source
  if isOther field stored then .ok ((record.get field.companion).orElse (.text [])).plain
  else field.kind.write settings data stored

/-- Adds the members of a record under their own names, without replacing a variable. -/
def addMembers (stem : Text) (record values : Members) : Members :=
  record.foldl (fun values (name, stored) =>
    let name := stem ++ Naming.variableSuffix name
    if (values.lookup name).isSome then values
    else values ++ [(name, .text (if stored.isNull then [] else stored.plain))]) values

/-- The variables of a record: its fields in their wording, then its members as they are. -/
def recordValues (settings : Settings) (stem : Text) (data : CaseData) (fields : List ItemField)
    (record : Members) : Outcome Members := do
  let values ← fields.mapM fun field => do
    return (stem ++ field.name, Value.text (← fieldValue settings data record field))
  return addMembers stem record (Members.ofPairs values)

def itemValues (settings : Settings) (data : CaseData) (collection : Collection) (item : Item) :
    Outcome Members :=
  match item, collection.source with
  | .child child, _ => childValues collection.stem data child
  | .record record, .records fields _ =>
      recordValues settings collection.stem data fields record
  | .record record, _ => recordValues settings collection.stem data [] record

end Collection

end Covenant
