import Covenant.Proofs.Articles
import Covenant.Proofs.Case.Layers
import Covenant.Proofs.Condition.Order
import Covenant.Proofs.Template.Completion

/-!
# Cases whose context can be built

The names that are derived from a case can be told, and its collections counted, exactly under the
conditions listed here.  Rules and clauses can be read when no comparison orders an integer that is
too large.
-/

namespace Covenant

/-! ### Conditions -/

/-- No comparison of a stored condition orders an integer that is too large. -/
def Condition.InRange (stored : Value) : Prop :=
  ∀ condition, ofValue stored = .ok condition → ∀ leaf, Has leaf condition → leaf.isTooLarge = false

theorem Condition.returns_evaluate {stored : Value} (inRange : InRange stored) (maxDepth : Int)
    (context : ContextMap) : Outcome.Returns (evaluate maxDepth context stored) := by
  rw [evaluate]
  cases read : ofValue stored with
  | error fault => exact Outcome.returns_ok _
  | ok condition =>
      have levels : levelsWithin maxDepth = levelsWithin (maxDepth - (0 : Nat)) := by simp
      refine ⟨_, evaluateWithin_eq_value levels fun leaf has => ?_⟩
      exact ⟨_, Comparison.failsIff_evaluate.ok (by simp [inRange condition read leaf has])⟩

namespace Rules

/-- The conditions of the rules in a configuration can be evaluated. -/
def AreInRange (configuration : Value) : Prop :=
  ∀ members : Members, configuration = .object members →
    ∀ rule : Members, .object rule ∈ rulesOf members →
      Condition.InRange (Members.getEither rule "condition" "conditie")

theorem returns_firstMet (settings : Settings) (context : ContextMap) {rules : List Value}
    (inRange : ∀ rule : Members, .object rule ∈ rules →
      Condition.InRange (Members.getEither rule "condition" "conditie")) (number : Nat) :
    Outcome.Returns (firstMet settings context number rules) := by
  induction rules generalizing number with
  | nil => exact Outcome.returns_ok none
  | cons rule rules ih =>
      have later := ih (fun other member => inRange other (List.mem_cons_of_mem rule member)) (number + 1)
      have own : Outcome.Returns (resultIfMet settings context rule) := by
        unfold resultIfMet
        split
        · rename_i members
          split
          · exact Outcome.returns_ok none
          · refine (Condition.returns_evaluate (inRange members List.mem_cons_self) _ context).bind
              fun holds _ => ?_
            split_ifs
            · exact Outcome.returns_ok _
            · exact Outcome.returns_ok _
        · exact Outcome.returns_ok none
      refine own.bind fun result _ => ?_
      cases result with
      | none => exact later
      | some result => exact Outcome.returns_ok _

theorem returns_evaluate {configuration : Value} (inRange : AreInRange configuration)
    (settings : Settings) (context : ContextMap) :
    Outcome.Returns (evaluate settings context configuration) := by
  unfold evaluate
  split
  · rename_i members
    refine (returns_firstMet settings context (inRange members rfl) 1).bind fun result _ => ?_
    cases result with
    | none => exact Outcome.returns_ok _
    | some result => exact Outcome.returns_ok _
  · exact Outcome.returns_ok _

end Rules

namespace CaseContext

variable {settings : Settings} {registry : Registry} {data : CaseData}

/-! ### Derived names -/

/-- A case without children may state their number, which has to be finite. -/
def HasFiniteCount (context : ContextMap) : Prop :=
  ∀ number, (context.lookup "AantalKinderen").bind numberOfText? = some number →
    ∃ negative mantissa exponent, number = .finite negative mantissa exponent

theorem returns_statedCount_iff {context : ContextMap} :
    Outcome.Returns (statedCount context) ↔ HasFiniteCount context := by
  unfold statedCount HasFiniteCount
  cases (context.lookup "AantalKinderen").bind numberOfText? with
  | none => exact iff_of_true (Outcome.returns_ok 0) nofun
  | some number =>
      simp only [Option.some.injEq, forall_eq']
      cases number with
      | nan => exact iff_of_false (Outcome.not_returns_error _) (by simp)
      | infinite negative => exact iff_of_false (Outcome.not_returns_error _) (by simp)
      | finite negative mantissa exponent =>
          refine iff_of_true ?_ (by simp)
          split_ifs
          · exact Outcome.returns_ok _
          · exact Outcome.returns_ok _

/-- The context with the fields, the derived names and the custom placeholders of a case. -/
def named (settings : Settings) (registry : Registry) (data : CaseData) : Outcome ContextMap := do
  let fields := (← ContextMap.ofPairs data.fields).withAliases
  let derived ← derivedNames settings registry data
  return (addCustom (addNew fields derived) data.customPlaceholders).withAliases

theorem base_eq : base settings registry data = (do
    let context ← named settings registry data
    let context := context.insertAll (← grammarRules settings data context)
    return Grammar.addToContext context (← Grammar.collectionRules settings registry data)) := by
  simp only [base, named, bind_assoc, pure_bind]

theorem returns_ofPairs_iff {pairs : List (Value × Value)} :
    Outcome.Returns (ContextMap.ofPairs pairs) ↔ ∀ pair ∈ pairs, pair.1.IsText := by
  constructor
  · rintro ⟨context, read⟩ pair member
    obtain ⟨texts, each, -⟩ := exists_texts_of_pairs read
    obtain ⟨text, -, isText, -⟩ := Outcome.exists_of_forall₂ each.flip member
    exact ⟨text.1, isText⟩
  · intro texts
    refine Outcome.returns_foldlM (fun context pair member => ?_) _
    obtain ⟨name, isText⟩ := texts pair member
    simp only [isText]
    exact Outcome.returns_ok _

theorem returns_childrenNames (texts : data.HasPersonTexts) :
    Outcome.Returns (childrenNames settings data) :=
  (PartyReference.returns_childNames texts.children).bind fun _ _ =>
    (PartyReference.returns_childNames (texts.minors _)).bind fun _ _ => Outcome.returns_ok _

theorem returns_collectionNames_iff {collection : Collection} :
    Outcome.Returns (collectionNames settings data collection) ↔
      Outcome.Returns (collection.items settings data []) :=
  ⟨Outcome.Returns.of_bind, fun items => items.bind fun _ _ => Outcome.returns_ok _⟩

/-- Names are derived when the call names of the parties can be told and collections counted. -/
theorem returns_derivedNames_iff (texts : data.HasPersonTexts) :
    Outcome.Returns (derivedNames settings registry data) ↔
      (∀ party ∈ data.parties, party.HasCallName) ∧
        ∀ collection ∈ registry.toList, Outcome.Returns (collection.items settings data []) := by
  have counted : Outcome.Returns (registry.toList.mapM (collectionNames settings data)) ↔
      ∀ collection ∈ registry.toList, Outcome.Returns (collection.items settings data []) := by
    rw [Outcome.returns_mapM_iff]
    exact forall₂_congr fun _ _ => returns_collectionNames_iff
  rw [← returns_partiesNames_iff texts.parties 1, ← counted]
  constructor
  · intro returns
    obtain ⟨parties, named, rest⟩ := Outcome.returns_bind_iff.mp returns
    obtain ⟨children, -, rest⟩ := Outcome.returns_bind_iff.mp rest
    exact ⟨⟨parties, named⟩, rest.of_bind⟩
  · rintro ⟨parties, collections⟩
    exact parties.bind fun _ _ => (returns_childrenNames texts).bind fun _ _ =>
      collections.bind fun _ _ => Outcome.returns_ok _

theorem returns_rulesOfCollection {collection : Collection}
    (counted : Outcome.Returns (collection.items settings data [])) :
    Outcome.Returns (Grammar.rulesOfCollection settings data collection) := by
  rw [Grammar.rulesOfCollection]
  split_ifs
  · exact Outcome.returns_ok []
  · exact counted.bind fun _ _ => Outcome.returns_ok _

theorem returns_grammarRules_iff (texts : data.HasPersonTexts) (context : ContextMap) :
    Outcome.Returns (grammarRules settings data context) ↔
      (∀ child ∈ data.minors settings.maturityAge, child.HasCallName) ∧
        (data.children = [] → HasFiniteCount context) := by
  rw [grammarRules]
  by_cases childless : data.children = []
  · have noMinors : data.minors settings.maturityAge = [] := by rw [CaseData.minors, childless]; rfl
    rw [childless, noMinors, ← returns_statedCount_iff]
    refine ⟨fun returns => ⟨nofun, fun _ => returns.of_bind⟩, fun ⟨_, count⟩ => ?_⟩
    exact (count rfl).bind fun _ _ => Outcome.returns_ok _
  · rw [if_neg (by simpa using childless), Grammar.returns_childRules_iff (texts.minors _) texts.children]
    simp [childless]

/-- The call names and counts that a context is made of can be told. -/
structure CanBeNamed (settings : Settings) (registry : Registry) (data : CaseData) : Prop where
  fields : ∀ field ∈ data.fields, field.1.IsText
  parties : ∀ party ∈ data.parties, party.HasCallName
  minors : ∀ child ∈ data.minors settings.maturityAge, child.HasCallName
  collections : ∀ collection ∈ registry.toList, Outcome.Returns (collection.items settings data [])
  count : data.children = [] →
    ∀ context, named settings registry data = .ok context → HasFiniteCount context

theorem returns_base_iff (texts : data.HasPersonTexts) :
    Outcome.Returns (base settings registry data) ↔ CanBeNamed settings registry data := by
  rw [base_eq]
  constructor
  · intro returns
    obtain ⟨context, isNamed, rest⟩ := Outcome.returns_bind_iff.mp returns
    obtain ⟨minors, count⟩ := (returns_grammarRules_iff texts context).mp rest.of_bind
    obtain ⟨fields, read, derives⟩ := Outcome.returns_bind_iff.mp ⟨context, isNamed⟩
    obtain ⟨parties, collections⟩ := (returns_derivedNames_iff texts).mp derives.of_bind
    refine ⟨returns_ofPairs_iff.mp ⟨fields, read⟩, parties, minors, collections, ?_⟩
    intro childless other same
    obtain rfl := Except.ok.inj (isNamed.symm.trans same)
    exact count childless
  · intro canBe
    have names : Outcome.Returns (named settings registry data) :=
      (returns_ofPairs_iff.mpr canBe.fields).bind fun _ _ =>
        ((returns_derivedNames_iff texts).mpr ⟨canBe.parties, canBe.collections⟩).bind fun _ _ =>
          Outcome.returns_ok _
    refine names.bind fun context isNamed => ?_
    refine ((returns_grammarRules_iff texts context).mpr
      ⟨canBe.minors, fun childless => canBe.count childless context isNamed⟩).bind fun _ _ => ?_
    refine Outcome.Returns.bind ?_ fun _ _ => Outcome.returns_ok _
    refine (Outcome.returns_mapM_iff.mpr fun collection member => ?_).bind fun _ _ =>
      Outcome.returns_ok _
    exact returns_rulesOfCollection (canBe.collections collection member)

/-! ### Conditional placeholders -/

/-- A conditional placeholder has a text for its key, and the conditions of its rules can be
evaluated. -/
structure CanBeChosen (placeholder : ConditionalPlaceholder) : Prop where
  key : placeholder.key.IsText
  rules : Rules.AreInRange placeholder.configuration

theorem returns_addConditional {placeholder : ConditionalPlaceholder} (canBe : CanBeChosen placeholder)
    (building : Building) : Outcome.Returns (addConditional settings building placeholder) := by
  obtain ⟨key, isText⟩ := canBe.key
  unfold addConditional
  split
  · refine (Rules.returns_evaluate canBe.rules settings _).bind fun result _ => ?_
    rw [isText]
    exact Outcome.returns_ok _
  · rw [isText]
    exact Outcome.returns_ok _

/-- The context of a case before its clauses are assembled. -/
def chosen (settings : Settings) (registry : Registry) (data : CaseData) (diagnostics : Diagnostics) :
    Outcome Building := do
  let context ← base settings registry data
  data.conditionalPlaceholders.foldlM (addConditional settings) ⟨context, diagnostics⟩

theorem returns_chosen_iff (texts : data.HasPersonTexts)
    (choices : ∀ placeholder ∈ data.conditionalPlaceholders, CanBeChosen placeholder)
    (diagnostics : Diagnostics) :
    Outcome.Returns (chosen settings registry data diagnostics) ↔
      CanBeNamed settings registry data := by
  rw [← returns_base_iff texts]
  refine ⟨Outcome.Returns.of_bind, fun names => names.bind fun context _ => ?_⟩
  exact Outcome.returns_foldlM
    (fun building placeholder member => returns_addConditional (choices placeholder member) building) _

end CaseContext

/-! ### Clauses -/

/-- A value is a text or null. -/
def Value.IsTextOrNull (value : Value) : Prop := value = .null ∨ value.IsText

/-- The titles and texts of a clause are texts or null, and it can be decided whether it applies. -/
structure Clause.IsReadable (clause : Clause) : Prop where
  title : clause.title.IsTextOrNull
  text : clause.text.IsTextOrNull
  userTitle : clause.userTitle.IsTextOrNull
  userText : clause.userText.IsTextOrNull
  caseText : clause.caseText.IsTextOrNull
  condition : Condition.InRange clause.condition
  conditionField : clause.conditionField.IsTextOrNull

namespace Clause

theorem exists_isWritten {candidate : Value} (isText : candidate.IsTextOrNull) :
    ∃ written, isWritten candidate = .ok written ∧ (written = true → candidate.IsText) := by
  rcases isText with rfl | ⟨content, rfl⟩
  · exact ⟨false, rfl, nofun⟩
  · rw [isWritten]
    split_ifs
    · exact ⟨_, rfl, fun _ => ⟨content, rfl⟩⟩
    · exact ⟨_, rfl, nofun⟩

theorem isText_orElse_empty {value : Value} (isText : value.IsTextOrNull) :
    (value.orElse (.text [])).IsText := by
  rcases isText with rfl | ⟨content, rfl⟩
  · exact ⟨[], rfl⟩
  · rw [Value.orElse]
    split_ifs
    · exact ⟨content, rfl⟩
    · exact ⟨[], rfl⟩

variable {clause : Clause}

theorem IsReadable.exists_effectiveText (readable : clause.IsReadable) :
    ∃ content, clause.effectiveText = .ok (.text content) := by
  obtain ⟨byCase, isByCase, caseText⟩ := exists_isWritten readable.caseText
  obtain ⟨byUser, isByUser, userText⟩ := exists_isWritten readable.userText
  simp only [effectiveText, isByCase, isByUser, Outcome.ok_bind]
  cases byCase with
  | true =>
      obtain ⟨content, same⟩ := caseText rfl
      exact ⟨content, by rw [same]; rfl⟩
  | false =>
      cases byUser with
      | true =>
          obtain ⟨content, same⟩ := userText rfl
          exact ⟨content, by rw [same]; rfl⟩
      | false =>
          obtain ⟨content, same⟩ := isText_orElse_empty readable.text
          exact ⟨content, by rw [same]; rfl⟩

theorem IsReadable.exists_effectiveTitle (readable : clause.IsReadable) :
    ∃ content, clause.effectiveTitle = .ok (.text content) := by
  obtain ⟨byUser, isByUser, userTitle⟩ := exists_isWritten readable.userTitle
  simp only [effectiveTitle, isByUser, Outcome.ok_bind]
  cases byUser with
  | true =>
      obtain ⟨content, same⟩ := userTitle rfl
      exact ⟨content, by rw [same]; rfl⟩
  | false =>
      obtain ⟨content, same⟩ := isText_orElse_empty readable.title
      exact ⟨content, by rw [same]; rfl⟩

end Clause

namespace Articles

theorem returns_applies {clause : Clause} (readable : clause.IsReadable) (settings : Settings)
    (scope : Scope) : Outcome.Returns (applies settings scope clause) := by
  obtain ⟨written, isWritten, isText⟩ := Clause.exists_isWritten readable.conditionField
  rw [applies]
  split_ifs
  · exact Outcome.returns_ok true
  · exact Outcome.returns_ok false
  · exact Condition.returns_evaluate readable.condition _ _
  · rw [isWritten, Outcome.ok_bind]
    cases written with
    | true =>
        obtain ⟨name, same⟩ := isText rfl
        rw [same]
        exact Outcome.returns_ok _
    | false => exact Outcome.returns_ok true

variable {source : Loop.Source} {scope : Scope} {clauses : List Clause}

theorem returns_select (settings : Settings) (scope : Scope)
    (readable : ∀ clause ∈ clauses, clause.IsReadable) :
    Outcome.Returns (select settings scope clauses) :=
  (Outcome.returns_filterM fun clause member => returns_applies (readable clause member) _ _).bind
    fun _ _ => Outcome.returns_ok _

variable (texts : source.data.HasPersonTexts)
  (writable : ∀ collection ∈ source.registry.toList,
    collection.IsWritable source.settings source.data scope.surroundings)

include texts writable

theorem returns_renderText {clause : Clause} (readable : clause.IsReadable) :
    Outcome.Returns (renderText source scope clause) := by
  obtain ⟨content, isText⟩ := readable.exists_effectiveText
  rw [renderText, isText]
  let around : Loop.Source := { source with surroundings := scope.surroundings }
  have aroundTexts : around.data.HasPersonTexts := texts
  have aroundWritable : ∀ collection ∈ around.registry.toList,
      collection.IsWritable around.settings around.data around.surroundings := writable
  exact (Loop.returns_expand aroundTexts aroundWritable _ content).bind fun _ _ => Outcome.returns_ok _

theorem returns_renderEach (readable : ∀ clause ∈ clauses, clause.IsReadable) :
    Outcome.Returns (renderEach source scope clauses) := by
  induction clauses with
  | nil => exact Outcome.returns_ok _
  | cons clause clauses ih =>
      have own := readable clause List.mem_cons_self
      have later := ih fun other member => readable other (List.mem_cons_of_mem clause member)
      obtain ⟨title, isTitle⟩ := own.exists_effectiveTitle
      rw [renderEach]
      refine (returns_renderText texts writable own).bind fun body _ => ?_
      split_ifs
      · exact later.bind fun _ _ => Outcome.returns_ok _
      · rw [isTitle]
        exact later.bind fun _ _ => Outcome.returns_ok _

theorem returns_render (readable : ∀ clause ∈ clauses, clause.IsReadable) :
    Outcome.Returns (render source scope clauses) :=
  (returns_select source.settings scope readable).bind fun _ selects =>
    returns_renderEach texts writable fun clause member =>
      readable clause (mem_of_mem_select selects member)

end Articles

end Covenant
