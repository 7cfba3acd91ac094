import Covenant.Articles
import Covenant.Condition.Rules
import Covenant.Diagnostics
import Covenant.Grammar
import Covenant.Template.Nested

/-!
# The context of a case

The context holds every name a template may use.  The fields of the case come
first, under both their spellings.  Names derived from parties, children and
collections, and then custom placeholders, are added where no field has the
name.  Grammar rules replace what is there, those of collections are only added.
Conditional placeholders replace names again; last come the assembled clauses.
-/

namespace Covenant.CaseContext

/-- The names for a party, numbered from 1. -/
def partyNames (number : Nat) (party : Party) : Outcome (List (Text × Value)) := do
  let callName ← callNameOf party.callName party.firstNames
  let start : Text := "Partij" ++ Text.ofNat number
  let name ← Wording.fullName callName party.insertion party.surname
  let fullName ← party.fullName
  let surname ← Wording.surname party.insertion party.surname
  let initials ← Wording.initials party.firstNames
  let address ← Wording.address party.address party.postalCode party.city
  return [
    (start ++ "Naam", .text name),
    (start ++ "VolledigeNaam", .text fullName),
    (start ++ "Voornamen", party.firstNames),
    (start ++ "Roepnaam", callName),
    (start ++ "Achternaam", .text surname),
    (start ++ "Voorletters", .text initials),
    (start ++ "Geboortedatum", .text (Wording.date? party.birthDate)),
    (start ++ "Geboorteplaats", party.birthPlace),
    (start ++ "Adres", .text address),
    (start ++ "Rol", party.role)]

/-- The names for parties, numbered on from a number. -/
def partiesNames : Nat → List Party → Outcome (List (Text × Value))
  | _, [] => .ok []
  | number, party :: parties => do
      let names ← partyNames number party
      return names ++ (← partiesNames (number + 1) parties)

def truth (holds : Bool) : Value := .text (if holds then "true" else "false")

def countText (count : Nat) : Value := .text (Text.ofNat count)

def childrenNames (settings : Settings) (data : CaseData) : Outcome (List (Text × Value)) := do
  let minors := data.minors settings.maturityAge
  let names ← PartyReference.childNames data.children
  let minorNames ← PartyReference.childNames minors
  return [
    ("AantalKinderen", countText data.children.length),
    ("AantalMinderjarigeKinderen", countText minors.length),
    ("HeeftKinderen", truth !data.children.isEmpty),
    ("HeeftMinderjarigeKinderen", truth !minors.isEmpty),
    ("KinderenNamen", .text names),
    ("MinderjarigeKinderenNamen", .text minorNames)]

/-- The number of items of a collection, and whether there are any. -/
def collectionNames (settings : Settings) (data : CaseData) (collection : Collection) :
    Outcome (List (Text × Value)) := do
  let count := (← collection.items settings data []).length
  let name := Naming.pascal collection.name
  return [("Aantal" ++ name, countText count), ("Heeft" ++ name, truth (count != 0))]

/-- The names derived from parties, children and collections; of two that are the same, the
later one gives the value. -/
def derivedNames (settings : Settings) (registry : Registry) (data : CaseData) : Outcome Members := do
  let parties ← partiesNames 1 data.parties
  let children ← childrenNames settings data
  let collections ← registry.toList.mapM (collectionNames settings data)
  return Members.ofPairs (parties ++ children ++ collections.flatten)

def addNew (context : ContextMap) (names : Members) : ContextMap :=
  names.foldl (fun context (name, value) => context.insertNew name value.stored) context

def addCustom (context : ContextMap) (custom : List (Text × Text)) : ContextMap :=
  custom.foldl (fun context (name, text) => context.insertNew name text) context

/-- The number of children that a context without children gives. -/
def statedCount (context : ContextMap) : Outcome Int :=
  match (context.lookup "AantalKinderen").bind numberOfText? with
  | some number => if number.isZero then .ok 0 else Value.integerOfFloat number
  | none => .ok 0

/-- The grammar rules for the children of a case, or for the number that the context gives. -/
def grammarRules (settings : Settings) (data : CaseData) (context : ContextMap) :
    Outcome (List (Text × Value)) := do
  if data.children.isEmpty then return Grammar.simpleRules (← statedCount context)
  else Grammar.childRules (data.minors settings.maturityAge) data.children

/-- A context with what remained open while it was built. -/
structure Building where
  context : ContextMap
  diagnostics : Diagnostics

def withoutRules (key : Text) : Text :=
  "Conditional placeholder " ++ key ++ " has no rule configuration"

/-- Adds a placeholder whose value its rules choose in the context as it stands. -/
def addConditional (settings : Settings) (building : Building)
    (placeholder : ConditionalPlaceholder) : Outcome Building :=
  match placeholder.configuration with
  | .object _ => do
      let result ← Rules.evaluate settings building.context placeholder.configuration
      let text := Nested.resolve building.context settings.maxNestedDepth.toNat result.result
      return { building with context := building.context.insert (← placeholder.key.asText) text }
  | _ => do
      let diagnostics := building.diagnostics.warn (withoutRules placeholder.key.plain)
      return { context := building.context.insert (← placeholder.key.asText) [], diagnostics }

def addClauses (settings : Settings) (registry : Registry) (label : Text) (data : CaseData)
    (building : Building) : Outcome Building := do
  if data.clauses.isEmpty then return building
  else
    let rendering ←
      Articles.render { settings, registry, data } (Scope.ofContext building.context) data.clauses
    let context := building.context.insert "ARTIKELEN" (Articles.assemble rendering.clauses)
    let contents := Articles.contents label Articles.contentsHeading rendering.clauses
    return {
      context := context.insert "INHOUDSOPGAVE" contents
      diagnostics :=
        (building.diagnostics.warnAll rendering.warnings).addAllUnresolved rendering.unresolved }

def base (settings : Settings) (registry : Registry) (data : CaseData) : Outcome ContextMap := do
  let fields := (← ContextMap.ofPairs data.fields).withAliases
  let derived ← derivedNames settings registry data
  let context := (addCustom (addNew fields derived) data.customPlaceholders).withAliases
  let context := context.insertAll (← grammarRules settings data context)
  return Grammar.addToContext context (← Grammar.collectionRules settings registry data)

/-- Builds the context of a case.  `label` stands in front of the numbers of articles. -/
def build (settings : Settings) (registry : Registry) (label : Text) (data : CaseData)
    (diagnostics : Diagnostics) : Outcome Building := do
  let context ← base settings registry data
  let building ← data.conditionalPlaceholders.foldlM (addConditional settings) ⟨context, diagnostics⟩
  addClauses settings registry label data building

end Covenant.CaseContext
