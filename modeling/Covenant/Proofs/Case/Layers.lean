import Covenant.Case.Context
import Covenant.Proofs.Context.Layering
import Covenant.Proofs.Outcome

/-!
# The layers of the context of a case

Nine layers give names their texts, and the first of them that gives a name a text decides.  Within
a layer the last pair counts where texts are written and the first where they are added, so the
pairs of a layer that writes are listed from the last on.
-/

namespace Covenant.CaseContext

/-- The pairs that the sources below conditional placeholders give, in the order of reading. -/
structure LowerLayers where
  fields : List (Text × Text)
  derived : List (Text × Text)
  custom : List (Text × Text)
  /-- The grammar rules for the children. -/
  rules : List (Text × Text)
  /-- The grammar rules of the collections. -/
  collectionRules : List (Text × Text)

namespace LowerLayers

variable (layers : LowerLayers)

/-- The aliases of the fields, of the spellings in which their names come first. -/
def fieldAliases : List (Text × Text) :=
  aliasTexts (firstSpellings (layers.fields.map (·.1))) (firstText layers.fields.reverse)

/-- What is added to the fields, in order. -/
def added : List (Text × Text) := layers.fieldAliases ++ layers.derived ++ layers.custom

/-- The fields and what is added to them, in the order in which they decide. -/
def named : List (Text × Text) := layers.fields.reverse ++ layers.added

/-- The aliases of all names so far, of the spellings in which they come first. -/
def aliases : List (Text × Text) :=
  aliasTexts (firstSpellings ((layers.fields ++ layers.added).map (·.1))) (firstText layers.named)

/-- All lower layers, in the order in which they decide. -/
def all : List (Text × Text) :=
  layers.rules.reverse ++ (layers.named ++ layers.aliases) ++ layers.collectionRules

/-- The layers are those of a case.  The grammar rules for the children may go by the number of
children in the context that they are added to. -/
structure OfCase (settings : Settings) (registry : Registry) (data : CaseData) : Prop where
  fields : List.Forall₂ (fun field pair => field.1 = .text pair.1 ∧ field.2.stored = pair.2)
    data.fields layers.fields
  derived : ∃ names, derivedNames settings registry data = .ok names ∧
    layers.derived = storedTexts names
  custom : layers.custom = data.customPlaceholders
  rules : ∃ context rules,
    (∀ name, context.lookup name = firstText (layers.named ++ layers.aliases) name) ∧
      grammarRules settings data context = .ok rules ∧ layers.rules = storedTexts rules
  collectionRules : Grammar.collectionRules settings registry data = .ok layers.collectionRules

end LowerLayers

/-- All pairs that give names of a context their texts, each source in the order of reading. -/
structure Layers extends LowerLayers where
  conditional : List (Text × Text)
  clauses : List (Text × Text)

namespace Layers

variable (layers : Layers)

/-- The layers that replace the fields of a case. -/
def replacing : List (Text × Text) :=
  layers.clauses.reverse ++ layers.conditional.reverse ++ layers.rules.reverse

/-- All layers, in the order in which they decide. -/
def all : List (Text × Text) :=
  layers.clauses.reverse ++ layers.conditional.reverse ++ layers.toLowerLayers.all

end Layers

/-- The text of a conditional placeholder in a context; without rules it is empty. -/
def conditionalText (settings : Settings) (context : ContextMap)
    (placeholder : ConditionalPlaceholder) : Outcome Text :=
  match placeholder.configuration with
  | .object _ => do
      let result ← Rules.evaluate settings context placeholder.configuration
      return Nested.resolve context settings.maxNestedDepth.toNat result.result
  | _ => .ok []

/-- Conditional placeholders give their texts one after the other, each in the context in which it
is reached. -/
inductive Chooses (settings : Settings) :
    ContextMap → List ConditionalPlaceholder → List (Text × Text) → ContextMap → Prop
  | nil (context : ContextMap) : Chooses settings context [] [] context
  | cons {context final : ContextMap} {placeholder : ConditionalPlaceholder} {key text : Text}
      {placeholders : List ConditionalPlaceholder} {texts : List (Text × Text)}
      (isKey : placeholder.key = .text key)
      (chosen : conditionalText settings context placeholder = .ok text)
      (later : Chooses settings (context.insert key text) placeholders texts final) :
      Chooses settings context (placeholder :: placeholders) ((key, text) :: texts) final

/-- What assembled clauses give. -/
def clauseTexts (label : Text) (clauses : List RenderedClause) : List (Text × Text) :=
  [("ARTIKELEN", Articles.assemble clauses),
    ("INHOUDSOPGAVE", Articles.contents label Articles.contentsHeading clauses)]

/-- The layers are those of a case; conditional placeholders and clauses are read in the contexts in
which they are reached. -/
structure Layers.OfCase (layers : Layers) (settings : Settings) (registry : Registry) (label : Text)
    (data : CaseData) : Prop extends layers.toLowerLayers.OfCase settings registry data where
  upper : ∃ before after, base settings registry data = .ok before ∧
    (∀ name, before.lookup name = firstText layers.toLowerLayers.all name) ∧
    Chooses settings before data.conditionalPlaceholders layers.conditional after ∧
    if data.clauses.isEmpty then layers.clauses = []
    else ∃ rendering,
      Articles.render { settings, registry, data } (Scope.ofContext after) data.clauses =
          .ok rendering ∧
        layers.clauses = clauseTexts label rendering.clauses

section

variable {settings : Settings} {registry : Registry} {data : CaseData} {label : Text}

/-! ### Below conditional placeholders -/

theorem exists_texts_of_pairs {fields : KeyedValues} {context start : ContextMap}
    (read : fields.foldlM (fun (context : ContextMap) (name, value) => do
      return context.insert (← name.asText) value.stored) start = .ok context) :
    ∃ pairs, List.Forall₂ (fun field pair => field.1 = .text pair.1 ∧ field.2.stored = pair.2)
      fields pairs ∧ context = start.insertTexts pairs := by
  induction fields generalizing start with
  | nil => exact ⟨[], .nil, (Except.ok.inj read).symm⟩
  | cons field fields ih =>
      obtain ⟨key, value⟩ := field
      rw [List.foldlM_cons] at read
      obtain ⟨next, insert, later⟩ := Outcome.bind_eq_ok_iff.mp read
      obtain ⟨name, isName, inserted⟩ := Outcome.bind_eq_ok_iff.mp insert
      obtain ⟨pairs, are, rfl⟩ := ih later
      cases key with
      | text content =>
          obtain rfl := Except.ok.inj isName
          obtain rfl := Except.ok.inj inserted
          exact ⟨(content, value.stored) :: pairs, .cons ⟨rfl, rfl⟩ are, rfl⟩
      | _ => cases isName

theorem addNew_eq (context : ContextMap) (names : Members) :
    addNew context names = context.insertNewTexts (storedTexts names) := by
  rw [addNew, ContextMap.insertNewTexts, storedTexts, List.foldl_map]

section Named

variable (layers : LowerLayers)

/-- The fields of a case as a context. -/
def fieldContext : ContextMap := ContextMap.insertTexts {} layers.fields

theorem fieldContext_distinct : (fieldContext layers).Distinct :=
  ContextMap.Distinct.empty.insertTexts

theorem lookup_fieldContext (name : Text) :
    (fieldContext layers).lookup name = firstText layers.fields.reverse name :=
  ContextMap.lookup_insertTexts.trans (Option.or_none ..)

theorem names_fieldContext :
    (fieldContext layers).names = firstSpellings (layers.fields.map (·.1)) :=
  ContextMap.names_insertTexts

theorem withAliases_fieldContext :
    (fieldContext layers).withAliases = (fieldContext layers).insertNewTexts layers.fieldAliases := by
  rw [(fieldContext_distinct layers).withAliases_eq, names_fieldContext,
    funext (lookup_fieldContext layers)]
  rfl

/-- The fields with everything that is added to them. -/
def namedContext : ContextMap := (fieldContext layers).insertNewTexts layers.added

theorem lookup_namedContext (name : Text) :
    (namedContext layers).lookup name = firstText layers.named name := by
  rw [namedContext, ContextMap.lookup_insertNewTexts, lookup_fieldContext, LowerLayers.named,
    firstText_append]

theorem lookup_withAliases_namedContext (name : Text) :
    (namedContext layers).withAliases.lookup name =
      firstText (layers.named ++ layers.aliases) name := by
  have names : (namedContext layers).names =
      firstSpellings ((layers.fields ++ layers.added).map (·.1)) := by
    rw [namedContext, ContextMap.names_insertNewTexts, names_fieldContext, List.map_append,
      firstSpellings_append]
  have distinct : (namedContext layers).Distinct := (fieldContext_distinct layers).insertNewTexts
  rw [distinct.withAliases_eq, names, funext (lookup_namedContext layers),
    ContextMap.lookup_insertNewTexts, lookup_namedContext, firstText_append]
  rfl

end Named

/-- Below conditional placeholders the first layer that gives a name a text decides. -/
theorem exists_lowerLayers {context : ContextMap} (built : base settings registry data = .ok context) :
    ∃ layers : LowerLayers, layers.OfCase settings registry data ∧
      ∀ name, context.lookup name = firstText layers.all name := by
  obtain ⟨fieldsRead, readFields, built⟩ := Outcome.bind_eq_ok_iff.mp built
  obtain ⟨derived, derive, built⟩ := Outcome.bind_eq_ok_iff.mp built
  obtain ⟨rules, readRules, built⟩ := Outcome.bind_eq_ok_iff.mp built
  obtain ⟨collectionRules, readCollections, built⟩ := Outcome.bind_eq_ok_iff.mp built
  obtain ⟨fields, areFields, rfl⟩ := exists_texts_of_pairs readFields
  let layers : LowerLayers := {
    fields, derived := storedTexts derived, custom := data.customPlaceholders
    rules := storedTexts rules, collectionRules }
  have isNamed :
      addCustom (addNew (fieldContext layers).withAliases derived) data.customPlaceholders =
        namedContext layers := by
    rw [withAliases_fieldContext, addNew_eq, namedContext, LowerLayers.added,
      ContextMap.insertNewTexts_append, ContextMap.insertNewTexts_append]
    rfl
  change grammarRules settings data
    (addCustom (addNew (fieldContext layers).withAliases derived)
      data.customPlaceholders).withAliases = _ at readRules
  change Except.ok (Grammar.addToContext
    ((addCustom (addNew (fieldContext layers).withAliases derived)
      data.customPlaceholders).withAliases.insertAll rules) collectionRules) = _ at built
  rw [isNamed] at readRules built
  obtain rfl := Except.ok.inj built
  refine ⟨layers, ⟨areFields, ⟨derived, derive, rfl⟩, rfl,
    ⟨_, rules, lookup_withAliases_namedContext layers, readRules, rfl⟩, readCollections⟩, ?_⟩
  intro name
  rw [LowerLayers.all, firstText_append, firstText_append, ← lookup_withAliases_namedContext,
    ContextMap.insertAll_eq]
  rw [← ContextMap.lookup_insertTexts]
  exact ContextMap.lookup_insertNewTexts

/-! ### Conditional placeholders and clauses -/

/-- A conditional placeholder gives its text to its key. -/
theorem context_addConditional {building next : Building} {placeholder : ConditionalPlaceholder}
    (added : addConditional settings building placeholder = .ok next) :
    ∃ key text, placeholder.key = .text key ∧
      conditionalText settings building.context placeholder = .ok text ∧
      next.context = building.context.insert key text := by
  have keyText {key : Text} (isKey : placeholder.key.asText = .ok key) : placeholder.key = .text key := by
    cases own : placeholder.key <;> rw [own] at isKey <;> cases isKey
    rfl
  unfold addConditional at added
  split at added
  · rename_i members isObject
    obtain ⟨result, evaluated, added⟩ := Outcome.bind_eq_ok_iff.mp added
    obtain ⟨key, isKey, inserted⟩ := Outcome.bind_eq_ok_iff.mp added
    obtain rfl := Except.ok.inj inserted
    refine ⟨key, _, keyText isKey, ?_, rfl⟩
    rw [isObject] at evaluated
    simp only [conditionalText, isObject, evaluated]
    rfl
  · rename_i noObject
    obtain ⟨key, isKey, inserted⟩ := Outcome.bind_eq_ok_iff.mp added
    obtain rfl := Except.ok.inj inserted
    refine ⟨key, [], keyText isKey, ?_, rfl⟩
    unfold conditionalText
    split
    · rename_i members isObject
      exact absurd isObject (noObject members)
    · rfl

theorem exists_chosen {start final : Building} {placeholders : List ConditionalPlaceholder}
    (run : placeholders.foldlM (addConditional settings) start = .ok final) :
    ∃ texts, Chooses settings start.context placeholders texts final.context := by
  induction placeholders generalizing start with
  | nil =>
      obtain rfl := Except.ok.inj run
      exact ⟨[], .nil _⟩
  | cons placeholder placeholders ih =>
      rw [List.foldlM_cons] at run
      obtain ⟨next, add, later⟩ := Outcome.bind_eq_ok_iff.mp run
      obtain ⟨key, text, isKey, chosen, inserted⟩ := context_addConditional add
      obtain ⟨texts, chooses⟩ := ih later
      rw [inserted] at chooses
      exact ⟨(key, text) :: texts, .cons isKey chosen chooses⟩

theorem Chooses.lookup {before after : ContextMap} {placeholders : List ConditionalPlaceholder}
    {texts : List (Text × Text)} (chooses : Chooses settings before placeholders texts after)
    (name : Text) :
    after.lookup name = (firstText texts.reverse name).or (before.lookup name) := by
  induction chooses with
  | nil => rfl
  | @cons context final placeholder key text placeholders texts isKey chosen later ih =>
      rw [ih, ContextMap.lookup_insert, List.reverse_cons, firstText_append, Option.or_assoc,
        firstText_cons]
      congr 1
      split <;> rfl

theorem addClauses_eq_ok {building final : Building}
    (added : addClauses settings registry label data building = .ok final) :
    ∃ clauses, final.context = building.context.insertTexts clauses ∧
      if data.clauses.isEmpty then clauses = []
      else ∃ rendering,
        Articles.render { settings, registry, data } (Scope.ofContext building.context) data.clauses =
            .ok rendering ∧
          clauses = clauseTexts label rendering.clauses := by
  unfold addClauses at added
  split at added
  · rename_i none
    obtain rfl := Except.ok.inj added
    exact ⟨[], rfl, by rw [if_pos none]⟩
  · rename_i some
    obtain ⟨rendering, rendered, inserted⟩ := Outcome.bind_eq_ok_iff.mp added
    obtain rfl := Except.ok.inj inserted
    refine ⟨clauseTexts label rendering.clauses, rfl, ?_⟩
    rw [if_neg some]
    exact ⟨rendering, rendered, rfl⟩

theorem exists_layers {diagnostics : Diagnostics} {building : Building}
    (built : build settings registry label data diagnostics = .ok building) :
    ∃ layers : Layers, layers.OfCase settings registry label data ∧
      ∀ name, building.context.lookup name = firstText layers.all name := by
  obtain ⟨before, buildBase, built⟩ := Outcome.bind_eq_ok_iff.mp built
  obtain ⟨middle, choose, built⟩ := Outcome.bind_eq_ok_iff.mp built
  obtain ⟨lower, ofCase, lookupLower⟩ := exists_lowerLayers buildBase
  obtain ⟨conditional, chooses⟩ := exists_chosen choose
  obtain ⟨clauses, written, areClauses⟩ := addClauses_eq_ok built
  refine ⟨{ lower with conditional, clauses },
    ⟨ofCase, before, middle.context, buildBase, lookupLower, chooses, areClauses⟩, fun name => ?_⟩
  rw [written, ContextMap.lookup_insertTexts, chooses.lookup, lookupLower, Layers.all,
    firstText_append, firstText_append, Option.or_assoc]

end

/-- A field that a grammar rule replaces, a field with an alias that a custom placeholder does not
replace, and a placeholder without rules. -/
def layeredData : CaseData := {
  fields := [(.text "Kind", .text "Sam"), (.text "woonPlaats", .text "Breda")]
  customPlaceholders := [("WOON_PLAATS", "Delft"), ("bank_naam", "Triodos")]
  conditionalPlaceholders := [⟨.text "BankNaam", .null⟩]
  today := { year := 2024, month := 6, day := 1 } }

/-- A name in two spellings, the later of which has an alias. -/
def respelledData : CaseData := {
  fields := [(.text "haskids", .text "a"), (.text "HasKids", .text "b")]
  customPlaceholders := [("has_kids", "c")]
  today := { year := 2024, month := 6, day := 1 } }

theorem firstText_simpleRules (count : Int) :
    firstText (storedTexts (Grammar.simpleRules count)).reverse "has_kids" = none := by
  unfold Grammar.simpleRules
  cases decide (1 < count) <;> rfl

end Covenant.CaseContext
