import Covenant.Proofs.Articles
import Covenant.Proofs.Case.Layers
import Covenant.Proofs.Collection.Clean
import Covenant.Proofs.Grammar

/-!
# The context of a case without delimiters

Below conditional placeholders every text of the context is made of stored values, so it holds no
delimiters.  A conditional placeholder adds a result of its rules, in which names have given way to
texts of the context: it may hold tokens.  The assembled clauses add the markers of their headings.
-/

namespace Covenant

/-- The texts of pairs hold no delimiters. -/
def CleanTexts (pairs : List (Text × Text)) : Prop := ∀ pair ∈ pairs, Clean pair.2

namespace CleanTexts

variable {pairs more : List (Text × Text)} {name text : Text}

theorem append (clean : CleanTexts pairs) (moreClean : CleanTexts more) : CleanTexts (pairs ++ more) :=
  fun pair member => (List.mem_append.mp member).elim (clean pair) (moreClean pair)

theorem reverse (clean : CleanTexts pairs) : CleanTexts pairs.reverse :=
  fun pair member => clean pair (List.mem_reverse.mp member)

theorem firstText (clean : CleanTexts pairs) (found : firstText pairs name = some text) : Clean text := by
  obtain ⟨pair, member, -, rfl⟩ := exists_of_firstText found
  exact clean pair member

theorem aliasTexts (clean : CleanTexts pairs) (names : List Text) :
    CleanTexts (aliasTexts names (Covenant.firstText pairs)) := by
  intro pair member
  obtain ⟨name, found⟩ := exists_of_aliasTexts member
  exact clean.firstText found

end CleanTexts

theorem Members.AreClean.storedTexts {members : Members} (clean : members.AreClean) :
    CleanTexts (storedTexts members) := by
  intro pair member
  obtain ⟨own, isMember, rfl⟩ := List.mem_map.mp member
  exact (clean own isMember).stored

namespace CaseContext

variable {settings : Settings} {registry : Registry} {data : CaseData} {label : Text}

/-! ### Derived names -/

theorem clean_partyNames {party : Party} (clean : party.IsClean) {number : Nat}
    {names : List (Text × Value)} (given : partyNames number party = .ok names) :
    Members.AreClean names := by
  obtain ⟨callName, isCallName, given⟩ := Outcome.bind_eq_ok_iff.mp given
  obtain ⟨name, isName, given⟩ := Outcome.bind_eq_ok_iff.mp given
  obtain ⟨fullName, isFullName, given⟩ := Outcome.bind_eq_ok_iff.mp given
  obtain ⟨surname, isSurname, given⟩ := Outcome.bind_eq_ok_iff.mp given
  obtain ⟨initials, areInitials, given⟩ := Outcome.bind_eq_ok_iff.mp given
  obtain ⟨address, isAddress, given⟩ := Outcome.bind_eq_ok_iff.mp given
  obtain rfl := Except.ok.inj given
  have callNameClean := isClean_callNameOf clean.callName clean.firstNames isCallName
  simp only [Members.AreClean, List.forall_mem_cons, List.not_mem_nil, false_imp_iff,
    implies_true, and_true]
  exact ⟨Wording.clean_fullName callNameClean clean.insertion clean.surname isName,
    clean.clean_fullName isFullName, clean.firstNames, callNameClean,
    Wording.clean_surname clean.insertion clean.surname isSurname,
    Wording.clean_initials clean.firstNames areInitials, Wording.clean_date? _, clean.birthPlace,
    Wording.clean_address clean.address clean.postalCode clean.city isAddress, clean.role⟩

theorem clean_partiesNames {parties : List Party} (clean : ∀ party ∈ parties, party.IsClean)
    {number : Nat} {names : List (Text × Value)} (given : partiesNames number parties = .ok names) :
    Members.AreClean names := by
  induction parties generalizing number names with
  | nil =>
      obtain rfl := Except.ok.inj given
      nofun
  | cons party parties ih =>
      obtain ⟨own, later⟩ := List.forall_mem_cons.mp clean
      obtain ⟨first, isFirst, given⟩ := Outcome.bind_eq_ok_iff.mp given
      obtain ⟨rest, isRest, same⟩ := Outcome.bind_eq_ok_iff.mp given
      obtain rfl := Except.ok.inj same
      exact (clean_partyNames own isFirst).append (ih later isRest)

theorem isClean_truth (holds : Bool) : (truth holds).IsClean := by
  cases holds
  · exact show Clean ("false" : Text) by decide
  · exact show Clean ("true" : Text) by decide

theorem isClean_countText (count : Nat) : (countText count).IsClean := Clean.ofNat count

theorem clean_childrenNames (clean : data.IsClean) {names : List (Text × Value)}
    (given : childrenNames settings data = .ok names) : Members.AreClean names := by
  obtain ⟨all, areAll, given⟩ := Outcome.bind_eq_ok_iff.mp given
  obtain ⟨minors, areMinors, given⟩ := Outcome.bind_eq_ok_iff.mp given
  obtain rfl := Except.ok.inj given
  simp only [Members.AreClean, List.forall_mem_cons, List.not_mem_nil, false_imp_iff,
    implies_true, and_true]
  exact ⟨isClean_countText _, isClean_countText _, isClean_truth _, isClean_truth _,
    PartyReference.clean_childNames clean.children areAll,
    PartyReference.clean_childNames (clean.minors _) areMinors⟩

theorem clean_collectionNames {collection : Collection} {names : List (Text × Value)}
    (given : collectionNames settings data collection = .ok names) : Members.AreClean names := by
  obtain ⟨items, -, given⟩ := Outcome.bind_eq_ok_iff.mp given
  obtain rfl := Except.ok.inj given
  simp [Members.AreClean, isClean_countText, isClean_truth]

theorem clean_derivedNames (clean : data.IsClean) {names : Members}
    (given : derivedNames settings registry data = .ok names) : names.AreClean := by
  obtain ⟨parties, areParties, given⟩ := Outcome.bind_eq_ok_iff.mp given
  obtain ⟨children, areChildren, given⟩ := Outcome.bind_eq_ok_iff.mp given
  obtain ⟨collections, areCollections, given⟩ := Outcome.bind_eq_ok_iff.mp given
  obtain rfl := Except.ok.inj given
  have collectionsClean : Members.AreClean collections.flatten := by
    intro member isMember
    obtain ⟨own, isOwn, isMember⟩ := List.mem_flatten.mp isMember
    obtain ⟨collection, -, given⟩ := Outcome.exists_of_mem_mapM areCollections isOwn
    exact clean_collectionNames given member isMember
  exact .ofPairs (((clean_partiesNames clean.parties areParties).append
    (clean_childrenNames clean areChildren)).append collectionsClean)

/-! ### Layers -/

theorem clean_grammarRules (clean : data.IsClean) {context : ContextMap} {rules : List (Text × Value)}
    (given : grammarRules settings data context = .ok rules) : Members.AreClean rules := by
  rw [grammarRules] at given
  split at given
  · obtain ⟨count, -, same⟩ := Outcome.bind_eq_ok_iff.mp given
    obtain rfl := Except.ok.inj same
    exact Grammar.clean_simpleRules count
  · exact Grammar.clean_childRules (clean.minors _) given

theorem LowerLayers.OfCase.clean {layers : LowerLayers} (ofCase : layers.OfCase settings registry data)
    (forms : registry.HoldsCleanForms) (clean : data.IsClean) : CleanTexts layers.all := by
  have fields : CleanTexts layers.fields := by
    intro pair member
    obtain ⟨field, isField, -, stored⟩ := Outcome.exists_of_forall₂ ofCase.fields member
    rw [← stored]
    exact (clean.fields field isField).stored
  have derived : CleanTexts layers.derived := by
    obtain ⟨names, given, same⟩ := ofCase.derived
    rw [same]
    exact (clean_derivedNames clean given).storedTexts
  have custom : CleanTexts layers.custom := by
    rw [ofCase.custom]
    exact clean.customPlaceholders
  have named : CleanTexts layers.named :=
    fields.reverse.append (((fields.reverse.aliasTexts _).append derived).append custom)
  have rules : CleanTexts layers.rules := by
    obtain ⟨context, rules, -, given, same⟩ := ofCase.rules
    rw [same]
    exact (clean_grammarRules clean given).storedTexts
  exact (rules.reverse.append (named.append (named.aliasTexts _))).append
    (Grammar.clean_collectionRules forms ofCase.collectionRules)

/-! ### Conditional placeholders -/

end CaseContext

/-- Whatever text the context gives a name has the property. -/
def ContextMap.AllTexts (context : ContextMap) (holds : Text → Prop) : Prop :=
  ∀ name text, context.lookup name = some text → holds text

theorem ContextMap.AllTexts.insert {context : ContextMap} {holds : Text → Prop}
    (all : context.AllTexts holds) {name text : Text} (own : holds text) :
    (context.insert name text).AllTexts holds := by
  intro other found isFound
  rw [ContextMap.lookup_insert] at isFound
  split at isFound
  · obtain rfl := Option.some.inj isFound
    exact own
  · exact all other found isFound

theorem HoldsTokens.of_clean {text : Text} (clean : Clean text) : HoldsTokens text := .of_lacks clean

namespace Rules

variable {settings : Settings} {context : ContextMap}

theorem exists_of_firstMet {number : Nat} {rules : List Value} {result : RuleResult}
    (met : firstMet settings context number rules = .ok (some result)) :
    ∃ rule : Members, .object rule ∈ rules ∧
      result.result = (Members.getEither rule "result" "resultaat").stored := by
  induction rules generalizing number with
  | nil => cases met
  | cons rule rules ih =>
      obtain ⟨own, isOwn, met⟩ := Outcome.bind_eq_ok_iff.mp met
      split at met
      · rename_i text
        cases met
        unfold resultIfMet at isOwn
        split at isOwn
        · rename_i members
          split at isOwn
          · cases isOwn
          · obtain ⟨holds, -, isOwn⟩ := Outcome.bind_eq_ok_iff.mp isOwn
            split at isOwn
            · cases isOwn
              exact ⟨members, List.mem_cons_self, rfl⟩
            · cases isOwn
        · cases isOwn
      · obtain ⟨found, member, isResult⟩ := ih met
        exact ⟨found, List.mem_cons_of_mem _ member, isResult⟩

theorem holdsTokens_evaluate {placeholder : ConditionalPlaceholder}
    (results : placeholder.ResultsHoldTokens) {result : RuleResult}
    (evaluated : evaluate settings context placeholder.configuration = .ok result) :
    HoldsTokens result.result := by
  unfold evaluate at evaluated
  split at evaluated
  · rename_i members isObject
    obtain ⟨usual, rules⟩ := results members isObject
    obtain ⟨met, isMet, evaluated⟩ := Outcome.bind_eq_ok_iff.mp evaluated
    split at evaluated
    · cases evaluated
      obtain ⟨rule, member, isResult⟩ := exists_of_firstMet isMet
      rw [isResult]
      exact rules rule member
    · cases evaluated
      exact usual
  · cases evaluated
    exact .of_clean Lacks.nil

end Rules

namespace CaseContext

theorem holdsTokens_conditionalText {context : ContextMap} (texts : context.AllTexts HoldsTokens)
    {placeholder : ConditionalPlaceholder} (results : placeholder.ResultsHoldTokens) {text : Text}
    (chosen : conditionalText settings context placeholder = .ok text) : HoldsTokens text := by
  unfold conditionalText at chosen
  split at chosen
  · obtain ⟨result, evaluated, same⟩ := Outcome.bind_eq_ok_iff.mp chosen
    obtain rfl := Except.ok.inj same
    exact Nested.tokenised_resolve texts _ (Rules.holdsTokens_evaluate results evaluated)
  · obtain rfl := Except.ok.inj chosen
    exact .of_clean Lacks.nil

/-- Conditional placeholders give texts with tokens, in contexts with such texts. -/
theorem Chooses.holdTokens {before after : ContextMap} {placeholders : List ConditionalPlaceholder}
    {texts : List (Text × Text)} (chooses : Chooses settings before placeholders texts after)
    (results : ∀ placeholder ∈ placeholders, placeholder.ResultsHoldTokens)
    (all : before.AllTexts HoldsTokens) :
    after.AllTexts HoldsTokens ∧ ∀ pair ∈ texts, HoldsTokens pair.2 ∧
      ∃ placeholder ∈ placeholders, placeholder.key = .text pair.1 := by
  induction chooses with
  | nil => exact ⟨all, nofun⟩
  | @cons context final placeholder key text placeholders texts isKey chosen later ih =>
      obtain ⟨own, others⟩ := List.forall_mem_cons.mp results
      have holdsTokens := holdsTokens_conditionalText all own chosen
      obtain ⟨afterwards, each⟩ := ih others (all.insert holdsTokens)
      refine ⟨afterwards, List.forall_mem_cons.mpr ⟨⟨holdsTokens, placeholder, List.mem_cons_self, isKey⟩, ?_⟩⟩
      intro pair member
      obtain ⟨pairTokens, found, isPlaceholder, isFound⟩ := each pair member
      exact ⟨pairTokens, found, List.mem_cons_of_mem _ isPlaceholder, isFound⟩

end CaseContext

/-! ### The whole context -/

/-- Outside of tokens there are no delimiters, and inside of them neither. -/
theorem Tokenised.brace_not_mem {kept : Text → Prop} {text : Text}
    (tokenised : Tokenised isDelimiter kept text) : '{' ∉ text := by
  obtain ⟨symbols, rfl, bear⟩ := tokenised
  intro brace
  obtain ⟨symbol, isSymbol, inSource⟩ := List.mem_flatMap.mp brace
  have own := bear symbol isSymbol
  cases symbol with
  | char c =>
      obtain rfl := List.mem_singleton.mp inSource
      exact absurd (show isDelimiter '{' = false from own) (by decide)
  | slot content =>
      have inContent : '{' ∈ content := by simpa [Loop.Symbol.source] using inSource
      exact absurd (own.1 _ inContent) (by decide)

/-- The context holds the text for the key of a conditional placeholder. -/
def CaseData.IsChosen (data : CaseData) (context : ContextMap) (text : Text) : Prop :=
  ∃ placeholder ∈ data.conditionalPlaceholders, ∃ key,
    placeholder.key = .text key ∧ context.lookup key = some text

namespace CaseContext

theorem holdsHeadings_clauses {layers : Layers} (ofCase : layers.OfCase settings registry label data)
    (labelClean : Clean label) (clean : data.IsClean) :
    ∀ pair ∈ layers.clauses, HoldsHeadings pair.2 := by
  obtain ⟨before, after, -, -, -, clauses⟩ := ofCase.upper
  split at clauses
  · rw [clauses]
    nofun
  · obtain ⟨rendering, rendered, areClauses⟩ := clauses
    have each := Articles.clean_render clean.clauses rendered
    rw [areClauses]
    refine List.forall_mem_cons.mpr ⟨Articles.holdsHeadings_assemble each, ?_⟩
    refine List.forall_mem_cons.mpr ⟨.of_lacks ?_, nofun⟩
    exact Articles.clean_contents labelClean (by decide) fun clause member => (each clause member).1

/-- A text of the context of a case has markers of headings as its tokens, or none; only the text of
a conditional placeholder may have others. -/
theorem holdsHeadings_or_chosen {diagnostics : Diagnostics} {building : Building}
    (forms : registry.HoldsCleanForms) (labelClean : Clean label) (clean : data.IsClean)
    (built : build settings registry label data diagnostics = .ok building) :
    building.context.AllTexts fun text =>
      HoldsHeadings text ∨ HoldsTokens text ∧ data.IsChosen building.context text := by
  obtain ⟨layers, ofCase, lookup⟩ := exists_layers built
  have lower : CleanTexts layers.toLowerLayers.all := ofCase.toOfCase.clean forms clean
  intro name text found
  have given := found
  rw [lookup] at given
  obtain ⟨pair, member, same, rfl⟩ := exists_of_firstText given
  rcases List.mem_append.mp member with upper | isLower
  · rcases List.mem_append.mp upper with isClause | isConditional
    · exact .inl (holdsHeadings_clauses ofCase labelClean clean pair (List.mem_reverse.mp isClause))
    · obtain ⟨before, after, -, lookupBefore, chooses, -⟩ := ofCase.upper
      have beforeTexts : before.AllTexts HoldsTokens := by
        intro name text found
        rw [lookupBefore] at found
        exact .of_clean (lower.firstText found)
      obtain ⟨holdsTokens, placeholder, isPlaceholder, isKey⟩ :=
        (chooses.holdTokens clean.results beforeTexts).2 pair (List.mem_reverse.mp isConditional)
      have sameLookup : building.context.lookup pair.1 = building.context.lookup name := by
        rw [ContextMap.lookup, ContextMap.lookup, beq_iff_eq.mp same]
      exact .inr ⟨holdsTokens, placeholder, isPlaceholder, pair.1, isKey, sameLookup.trans found⟩
  · exact .inl (.of_lacks (lower pair isLower))

theorem distinct_base {context : ContextMap} (built : base settings registry data = .ok context) :
    context.Distinct := by
  obtain ⟨fields, readFields, built⟩ := Outcome.bind_eq_ok_iff.mp built
  obtain ⟨derived, -, built⟩ := Outcome.bind_eq_ok_iff.mp built
  obtain ⟨rules, -, built⟩ := Outcome.bind_eq_ok_iff.mp built
  obtain ⟨collectionRules, -, built⟩ := Outcome.bind_eq_ok_iff.mp built
  obtain rfl := Except.ok.inj built
  obtain ⟨pairs, -, rfl⟩ := exists_texts_of_pairs readFields
  have fieldsDistinct : (ContextMap.insertTexts {} pairs).Distinct :=
    ContextMap.Distinct.empty.insertTexts
  have added : (addNew (ContextMap.insertTexts {} pairs).withAliases derived).Distinct := by
    rw [addNew_eq, fieldsDistinct.withAliases_eq]
    exact fieldsDistinct.insertNewTexts.insertNewTexts
  have custom : (addCustom (addNew (ContextMap.insertTexts {} pairs).withAliases derived)
      data.customPlaceholders).Distinct := added.insertNewTexts
  rw [custom.withAliases_eq, ContextMap.insertAll_eq]
  exact custom.insertNewTexts.insertTexts.insertNewTexts

theorem distinct_build {diagnostics : Diagnostics} {building : Building}
    (built : build settings registry label data diagnostics = .ok building) :
    building.context.Distinct := by
  obtain ⟨before, buildBase, built⟩ := Outcome.bind_eq_ok_iff.mp built
  obtain ⟨middle, choose, built⟩ := Outcome.bind_eq_ok_iff.mp built
  obtain ⟨clauses, written, -⟩ := addClauses_eq_ok built
  have chosen (placeholders : List ConditionalPlaceholder) (start : Building)
      (distinct : start.context.Distinct)
      (run : placeholders.foldlM (addConditional settings) start = .ok middle) :
      middle.context.Distinct := by
    induction placeholders generalizing start with
    | nil =>
        obtain rfl := Except.ok.inj run
        exact distinct
    | cons placeholder placeholders ih =>
        rw [List.foldlM_cons] at run
        obtain ⟨next, add, later⟩ := Outcome.bind_eq_ok_iff.mp run
        obtain ⟨key, text, -, -, inserted⟩ := context_addConditional add
        refine ih next ?_ later
        rw [inserted]
        exact distinct.insert
  rw [written]
  exact (chosen _ ⟨before, diagnostics⟩ (distinct_base buildBase) choose).insertTexts

/-- No text of the context of a case holds records, since none holds an opening brace. -/
theorem holdsCleanRecords_toMembers {diagnostics : Diagnostics} {building : Building}
    (forms : registry.HoldsCleanForms) (labelClean : Clean label) (clean : data.IsClean)
    (built : build settings registry label data diagnostics = .ok building) :
    ∀ pair ∈ building.context.toMembers, HoldsCleanRecords pair.2 := by
  intro pair member
  obtain ⟨item, isItem, rfl⟩ := List.mem_map.mp member
  obtain ⟨entry, isEntry, rfl⟩ := List.mem_map.mp isItem
  have found := (distinct_build built).lookup_of_mem isEntry
  have tokenised := holdsHeadings_or_chosen forms labelClean clean built _ _ found
  exact Collection.holdsCleanRecords_of_brace_not_mem
    (tokenised.elim Tokenised.brace_not_mem fun chosen => chosen.1.brace_not_mem)

end CaseContext

end Covenant
