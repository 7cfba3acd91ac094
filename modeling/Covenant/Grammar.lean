import Covenant.Collection.Registry
import Covenant.Context.Operation

/-!
# Grammar rules

Names such as `heeft/hebben` or `hij/zij/ze` stand for the form that agrees with
the number of children.  The plain rules go by the minor children; the rules
that start with `alle` go by all of them.  Gender matters for exactly one child.
Collections bring rules of their own, which never replace others.
-/

namespace Covenant.Grammar

def displayName (child : Child) : Outcome Value := do
  if child.callName.isFilled || child.firstNames.isFilled then
    callNameOf child.callName child.firstNames
  else return child.surname.orElse (.text "het kind")

def countForms (plural : Bool) : List (Text × Text) := [
  ("ons kind/onze kinderen", Wording.childTerm plural),
  ("het kind/de kinderen", Wording.agree plural "het kind" "de kinderen"),
  ("kind/kinderen", Wording.agree plural "kind" "kinderen")]

def verbForms (plural : Bool) : List (Text × Text) :=
  Wording.verbForms.map fun (singular, several) =>
    (singular ++ '/' :: several, Wording.agree plural singular several)

def pronounForms (plural : Bool) (gender : Option Wording.Gender) : List (Text × Text) := [
  ("zijn/haar/hun", Wording.possessivePronoun plural),
  ("diens/dier/hun", Wording.agree plural "diens/dier" "hun"),
  ("hem/haar/hen", Wording.objectPronoun plural gender),
  ("hij/zij/ze", Wording.subjectPronoun plural gender)]

/-- The rules for a number and a gender, under names that begin with `start`. -/
def countRules (start : Text) (plural : Bool) (gender : Option Wording.Gender) :
    List (Text × Value) :=
  (countForms plural ++ verbForms plural ++ pronounForms plural gender).map fun (name, form) =>
    (start ++ name, .text form)

/-- The gender that counts: that of the only child. -/
def genderOf : List Child → Outcome (Option Wording.Gender)
  | [child] => Wording.Gender.ofValue? child.gender
  | _ => .ok none

def allStart : Text := "alle "

/-- What `KIND` and `KINDEREN` stand for when the given children are minor. -/
def minorNames (minors : List Child) : Outcome (Value × Value) :=
  match minors with
  | [] => .ok (.text "het kind", .text "de kinderen")
  | [child] => do
      let name ← displayName child
      return (name, name)
  | minors => do
      let names ← Wording.enumerationOf (← minors.mapM displayName)
      return (names, names)

def nameRules (one several : Value) : List (Text × Value) :=
  [("KIND", one), ("KINDEREN", several)]

/-- The rules for children, of whom the given ones are minor. -/
def childRules (minors children : List Child) : Outcome (List (Text × Value)) := do
  let (one, several) ← minorNames minors
  let minorRules := countRules [] (1 < minors.length) (← genderOf minors)
  let allRules := countRules allStart (1 < children.length) (← genderOf children)
  return nameRules one several ++ minorRules ++ allRules

def simpleRules (count : Int) : List (Text × Value) :=
  let plural := decide (1 < count)
  nameRules (.text (Wording.agree plural "het kind" "de kinderen")) (.text "de kinderen") ++
    countRules [] plural none ++ countRules allStart plural none

/-- The rules of one collection, if it has any items. -/
def rulesOfCollection (settings : Settings) (data : CaseData) (collection : Collection) :
    Outcome (List (Text × Text)) :=
  if collection.grammarPairs.isEmpty then .ok []
  else do
    let count := (← collection.items settings data []).length
    return if count = 0 then []
      else collection.grammarPairs.map fun pair => (pair.name, pair.form count)

/-- The rules of all collections in the order of registration. -/
def collectionRules (settings : Settings) (registry : Registry) (data : CaseData) :
    Outcome (List (Text × Text)) := do
  return (← registry.toList.mapM (rulesOfCollection settings data)).flatten

/-- Adds rules to a context, where names are the same in any letter case.  Names that are
present keep their texts. -/
def addToContext (context : ContextMap) (rules : List (Text × Text)) : ContextMap :=
  rules.foldl (fun context (name, form) => context.insertNew name form) context

/-- Adds rules to other rules, which are distinguished by their exact names. -/
def addToRules (rules : Members) (new : List (Text × Text)) : Members :=
  new.foldl (fun rules (name, form) =>
    if (rules.lookup name).isSome then rules else rules ++ [(name, .text form)]) rules

/-- Rules by name: an object tells names apart exactly, a context in any letter case. -/
inductive RuleTable where
  | object (rules : Members)
  | context (map : ContextMap)

namespace RuleTable

def contains : RuleTable → Text → Bool
  | .object rules, name => (rules.lookup name).isSome
  | .context map, name => map.contains name

/-- Gives a name that is not there its form.  A frozen context takes no names. -/
def add (name form : Text) : RuleTable → Outcome RuleTable
  | .object rules => .ok (.object (rules ++ [(name, .text form)]))
  | .context map => do
      map.checkOpen
      return .context (map.insert name form)

/-- Adds rules one after the other, each unless its name is there; also gives the number of rules
that were added. -/
def addNew : List (Text × Text) → RuleTable → Outcome (Nat × RuleTable)
  | [], table => .ok (0, table)
  | (name, form) :: rules, table =>
      if table.contains name then addNew rules table
      else do
        let (added, table) ← addNew rules (← table.add name form)
        return (added + 1, table)

/-- Adds the rules of collections, one collection after the other. -/
def addRulesOf (settings : Settings) (data : CaseData) :
    List Collection → RuleTable → Outcome (Nat × RuleTable)
  | [], table => .ok (0, table)
  | collection :: collections, table => do
      let (own, table) ← table.addNew (← rulesOfCollection settings data collection)
      let (later, table) ← addRulesOf settings data collections table
      return (own + later, table)

/-- Adds the rules of all collections in the order of registration. -/
def addCollectionRules (settings : Settings) (registry : Registry) (data : CaseData)
    (table : RuleTable) : Outcome (Nat × RuleTable) :=
  addRulesOf settings data registry.toList table

end RuleTable

end Covenant.Grammar
