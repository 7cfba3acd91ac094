import Covenant.Proofs.Case.Completion
import Covenant.Proofs.Regions

/-!
# Cases for which every template can be resolved

A template can fail on a case in two ways: its context cannot be built, or the items of a collection
cannot be written in it.  The clauses give names of their own to the context, under which no usual
collection looks for records, so the items are the same with and without them.
-/

namespace Covenant

/-! ### Names that no collection looks for -/

namespace Collection

/-- The names under which a collection looks for its records, in lower case. -/
def keys (collection : Collection) : List Text :=
  match collection.source with
  | .records _ otherNames => (collection.name :: otherNames).map Text.lower
  | .children _ => []

/-- Names as collections look for them. -/
def lowered (members : Members) : List (Text × Value) :=
  members.map fun (name, value) => (Text.lower name, value)

theorem storedUnder?_eq (key : Text) (names : List (Text × Value)) :
    storedUnder? key names = ((names.filter (·.1 = key)).reverse.head?).map (·.2) := by
  rw [← List.filter_reverse, List.head?_filter]
  rfl

variable {settings : Settings} {data : CaseData} {collection : Collection} {context : ContextMap}

theorem lowered_toMembers (context : ContextMap) :
    lowered context.toMembers = context.entries.map fun entry => (entry.key, .text entry.text) := by
  simp only [lowered, ContextMap.toMembers, ContextMap.items, List.map_map]
  exact List.map_congr_left fun entry _ => by simp [entry.key_eq]

theorem filter_write {key name text : Text} (differs : Text.lower name ≠ key) (entries : List Entry) :
    ((ContextMap.write name text entries).map fun entry => (entry.key, Value.text entry.text)).filter
      (·.1 = key) = (entries.map fun entry => (entry.key, Value.text entry.text)).filter (·.1 = key) := by
  induction entries with
  | nil => simp [ContextMap.write, differs]
  | cons entry entries ih =>
      rw [ContextMap.write]
      split
      · rename_i same
        simp [same, differs]
      · simp only [List.map_cons, List.filter_cons, ih]

theorem storedUnder?_insert {key name : Text} (differs : Text.lower name ≠ key) (text : Text) :
    storedUnder? key (lowered (context.insert name text).toMembers) =
      storedUnder? key (lowered context.toMembers) := by
  rw [storedUnder?_eq, storedUnder?_eq, lowered_toMembers, lowered_toMembers, ContextMap.insert,
    filter_write differs]

theorem firstStored?_congr {keys : List Text} {names others : List (Text × Value)}
    (same : ∀ key ∈ keys, storedUnder? key names = storedUnder? key others) :
    firstStored? keys names = firstStored? keys others := by
  rw [firstStored?, firstStored?]
  induction keys with
  | nil => rfl
  | cons key keys ih =>
      rw [List.findSome?_cons, List.findSome?_cons, same key List.mem_cons_self,
        ih fun other member => same other (List.mem_cons_of_mem key member)]

/-- A collection finds the same items when another name gets a text. -/
theorem items_insert {name : Text} (differs : Text.lower name ∉ collection.keys) (text : Text) :
    collection.items settings data (context.insert name text).toMembers =
      collection.items settings data context.toMembers := by
  have same : firstStored? collection.keys (lowered (context.insert name text).toMembers) =
      firstStored? collection.keys (lowered context.toMembers) :=
    firstStored?_congr fun key member =>
      storedUnder?_insert (fun isKey => differs (isKey ▸ member)) text
  rw [items.eq_def, items.eq_def]
  cases own : collection.source with
  | children selection => rfl
  | records fields otherNames =>
      have keys : collection.keys = (collection.name :: otherNames).map Text.lower := by
        rw [Collection.keys, own]
      rw [keys] at same
      simp only [lowered] at same
      simp only [storedValue?, same]

end Collection

namespace CaseContext

variable {settings : Settings} {registry : Registry} {label : Text} {data : CaseData}
  {building final : Building}

/-- No usual collection looks for records under the names of assembled clauses. -/
theorem clauseNames_not_mem_keys : ∀ collection ∈ Registry.usual.toList,
    Text.lower "ARTIKELEN" ∉ collection.keys ∧ Text.lower "INHOUDSOPGAVE" ∉ collection.keys := by
  decide +kernel

theorem items_addClauses (added : addClauses settings registry label data building = .ok final)
    {collection : Collection} (member : collection ∈ Registry.usual.toList) :
    collection.items settings data final.context.toMembers =
      collection.items settings data building.context.toMembers := by
  obtain ⟨articles, contents⟩ := clauseNames_not_mem_keys collection member
  unfold addClauses at added
  split at added
  · obtain rfl := Except.ok.inj added
    rfl
  · obtain ⟨rendering, -, inserted⟩ := Outcome.bind_eq_ok_iff.mp added
    obtain rfl := Except.ok.inj inserted
    rw [Collection.items_insert contents, Collection.items_insert articles]

theorem isWritable_addClauses_iff (added : addClauses settings registry label data building = .ok final)
    {collection : Collection} (member : collection ∈ Registry.usual.toList) :
    collection.IsWritable settings data final.context.toMembers ↔
      collection.IsWritable settings data building.context.toMembers := by
  rw [Collection.IsWritable, Collection.IsWritable, items_addClauses added member]

/-- Clauses can be assembled when the items of every collection can be written. -/
theorem returns_addClauses (texts : data.HasPersonTexts)
    (readable : ∀ clause ∈ data.clauses, clause.IsReadable)
    (writable : ∀ collection ∈ registry.toList,
      collection.IsWritable settings data building.context.toMembers) :
    Outcome.Returns (addClauses settings registry label data building) := by
  unfold addClauses
  split
  · exact Outcome.returns_ok _
  · exact (Articles.returns_render texts writable readable).bind fun _ _ => Outcome.returns_ok _

theorem build_eq (diagnostics : Diagnostics) :
    build settings registry label data diagnostics =
      chosen settings registry data diagnostics >>= addClauses settings registry label data := by
  simp only [build, chosen, bind_assoc]

end CaseContext

namespace Resolver

open CaseContext

variable {data : CaseData} {diagnostics : Diagnostics} {building final : Building}

/-- The context that a case has in the end is the one to which its clauses were added. -/
theorem caseContext_of_added (isChosen : chosen {} .usual data diagnostics = .ok building)
    (added : addClauses {} .usual ({} : Resolver).articleLabel data building = .ok final) :
    ({} : Resolver).caseContext data diagnostics =
      .ok { final with context := final.context.freeze } := by
  have built : build {} .usual ({} : Resolver).articleLabel data diagnostics = .ok final := by
    rw [build_eq, isChosen]
    exact added
  simp only [caseContext, built]
  rfl

theorem exists_of_returns_caseContext
    (returns : Outcome.Returns (({} : Resolver).caseContext data diagnostics)) :
    ∃ building final, chosen {} .usual data diagnostics = .ok building ∧
      addClauses {} .usual ({} : Resolver).articleLabel data building = .ok final := by
  have built := returns.of_bind
  rw [build_eq] at built
  obtain ⟨building, isChosen, final, added⟩ := Outcome.returns_bind_iff.mp built
  exact ⟨building, final, isChosen, added⟩

/-- The rule that chooses the form of address. -/
def addressRule : Members := [
  ("condition", .object [("field", .text "stad"), ("operator", .text ">"), ("value", .int 3)]),
  ("result", .text "u")]

/-- A case with a party, a child and a placeholder with a rule. -/
def familyData : CaseData := {
  fields := [(.text "stad", .text "Utrecht")]
  parties := [{
    firstNames := .text "Jan Peter", surname := .text "Berg", insertion := .text "van den"
    callName := .text [], gender := .text "m", role := .text [], birthDate := none
    birthPlace := .text [], address := .text [], postalCode := .text [], city := .text [] }]
  children := [{
    id := none, firstNames := .text "Anna", surname := .text "Berg", insertion := .text []
    callName := .text "An", gender := .text "v", birthDate := none, birthPlace := .text []
    recognitionDate := none }]
  clauses := [{
    code := .text "1", title := .text "Kinderen", text := .text "[[KIND]]", order := 1
    numbering := .newNumber, isConditional := false, conditionField := .null, condition := .null
    userTitle := .null, userText := .null, caseText := .null, conditionError := none }]
  conditionalPlaceholders := [⟨.text "aanhef", .object [("rules", .list [.object addressRule])]⟩]
  today := { year := 2025, month := 6, day := 17 } }

theorem hasPersonTexts_familyData : familyData.HasPersonTexts where
  parties := by
    rintro party (_ | ⟨_, ⟨⟩⟩)
    constructor <;> exact ⟨_, rfl⟩
  children := by
    rintro child (_ | ⟨_, ⟨⟩⟩)
    constructor <;> exact ⟨_, rfl⟩

theorem canBeChosen_familyData :
    ∀ placeholder ∈ familyData.conditionalPlaceholders, CanBeChosen placeholder := by
  rintro placeholder (_ | ⟨_, ⟨⟩⟩)
  refine ⟨⟨_, rfl⟩, ?_⟩
  rintro members ⟨⟩ rule (_ | ⟨_, ⟨⟩⟩) condition read leaf has
  have isComparison : Condition.ofValue (Members.getEither addressRule "condition" "conditie") =
      .ok (.comparison { field := .text "stad", operator := .text ">", operand := .int 3 }) := rfl
  cases isComparison.symm.trans read
  cases has
  decide +kernel

theorem isReadable_familyData : ∀ clause ∈ familyData.clauses, clause.IsReadable := by
  rintro clause (_ | ⟨_, ⟨⟩⟩)
  refine ⟨.inr ⟨_, rfl⟩, .inr ⟨_, rfl⟩, .inl rfl, .inl rfl, .inl rfl, ?_, .inl rfl⟩
  rintro condition ⟨⟩

/-- An item is a child whose call name is given. -/
def isCalled : Item → Bool
  | .child child => child.callName.isFilled
  | .record _ => false

theorem isWritable_of_isCalled {settings : Settings} {data : CaseData} {surroundings : Members}
    {collection : Collection}
    (called : (collection.items settings data surroundings).toOption.any (·.all isCalled) = true) :
    collection.IsWritable settings data surroundings := by
  obtain ⟨items, listed, each⟩ := Option.any_eq_true _ _ |>.mp called
  refine ⟨items, Outcome.eq_ok_of_toOption listed, fun item member => ?_⟩
  have isCalled := List.all_eq_true.mp each item member
  cases item with
  | child child => exact .inl isCalled
  | record record => cases isCalled

/-- The only party of a case as it is stored, whose first names are blank. -/
def blankNamesCase : Value := .object [("parties", .list [.object [("first_names", .text " ")]])]

/-- The case that is read from it. -/
def blankNamesData : CaseData := {
  parties := [{
    firstNames := .text " ", surname := .text [], insertion := .text [], callName := .text []
    gender := .text [], role := .text [], birthDate := none, birthPlace := .text []
    address := .text [], postalCode := .text [], city := .text [] }]
  today := familyData.today }

end Resolver

end Covenant
