import Covenant.Proofs.Grammar.Table

/-!
# Which collection decides a grammar rule

The rules of collections are added in the order of registration, each unless its name is there.  So
nothing that was there changes, and a new name has the form that the first collection with items gives
it which has a pair of words with this name; of several such pairs of one collection the first counts.
-/

namespace Covenant

/-- A collection takes the place of the one that has its name, in capitals, and the last place when none
has. -/
theorem Registry.collections_register (registry : Registry) (collection : Collection) :
    (∃ front old behind, registry.collections = front ++ (Text.upper collection.name, old) :: behind ∧
      (registry.register collection).collections =
        front ++ (Text.upper collection.name, collection) :: behind) ∨
    (∀ entry ∈ registry.collections, entry.1 ≠ Text.upper collection.name) ∧
      (registry.register collection).collections =
        registry.collections ++ [(Text.upper collection.name, collection)] := by
  rw [register]
  induction registry.collections with
  | nil => exact .inr ⟨nofun, rfl⟩
  | cons entry entries ih =>
      obtain ⟨key, old⟩ := entry
      by_cases own : key = Text.upper collection.name
      · exact .inl ⟨[], old, entries, by rw [own]; rfl, by rw [place, if_pos own]; rfl⟩
      · rw [place, if_neg own]
        rcases ih with ⟨front, other, behind, rfl, placed⟩ | ⟨others, placed⟩
        · exact .inl ⟨(key, old) :: front, other, behind, rfl, congrArg (List.cons (key, old)) placed⟩
        · exact .inr ⟨List.forall_mem_cons.mpr ⟨own, others⟩, congrArg (List.cons (key, old)) placed⟩

namespace Grammar

section Collections

variable {settings : Settings} {data : CaseData} {collection : Collection}
  {collections : List Collection} {isName : Text → Bool} {own : List (Text × Text)}
  {each : List (List (Text × Text))}

/-- A collection has items, and a pair of words with a name. -/
def Declares (settings : Settings) (data : CaseData) (isName : Text → Bool)
    (collection : Collection) : Prop :=
  (∃ items, collection.items settings data [] = .ok items ∧ items ≠ []) ∧
    ∃ pair ∈ collection.grammarPairs, isName pair.name = true

/-- The first of the collections that declares a name, with its items and with the first of its pairs
that has the name. -/
structure Decides (settings : Settings) (data : CaseData) (isName : Text → Bool)
    (collections : List Collection) (collection : Collection) (items : List Item)
    (pair : GrammarPair) : Prop where
  isFirstCollection : ∃ front behind, collections = front ++ collection :: behind ∧
    ∀ other ∈ front, ¬ Declares settings data isName other
  listed : collection.items settings data [] = .ok items
  filled : items ≠ []
  isFirstPair : ∃ before after, collection.grammarPairs = before ++ pair :: after ∧
    ∀ other ∈ before, isName other.name = false
  isName_pair : isName pair.name = true

namespace Decides

variable {items : List Item} {pair : GrammarPair}

theorem declares (decides : Decides settings data isName collections collection items pair) :
    collection ∈ collections ∧ Declares settings data isName collection := by
  obtain ⟨front, behind, rfl, -⟩ := decides.isFirstCollection
  obtain ⟨before, after, pairs, -⟩ := decides.isFirstPair
  refine ⟨by simp, ⟨items, decides.listed, decides.filled⟩, pair, ?_, decides.isName_pair⟩
  rw [pairs]
  simp

/-- Collections that do not declare the name make no difference in front. -/
theorem behind {first : Collection} (silent : ¬ Declares settings data isName first)
    (decides : Decides settings data isName collections collection items pair) :
    Decides settings data isName (first :: collections) collection items pair where
  isFirstCollection := by
    obtain ⟨front, behind, rfl, others⟩ := decides.isFirstCollection
    exact ⟨first :: front, behind, rfl, List.forall_mem_cons.mpr ⟨silent, others⟩⟩
  listed := decides.listed
  filled := decides.filled
  isFirstPair := decides.isFirstPair
  isName_pair := decides.isName_pair

end Decides

theorem returns_rulesOfCollection_iff : Outcome.Returns (rulesOfCollection settings data collection) ↔
    (collection.grammarPairs ≠ [] → Outcome.Returns (collection.items settings data [])) := by
  rw [rulesOfCollection]
  split
  · rename_i noPairs
    exact iff_of_true (Outcome.returns_ok _) fun some => absurd (List.isEmpty_iff.mp noPairs) some
  · rename_i some
    have filled : collection.grammarPairs ≠ [] := fun none => some (List.isEmpty_iff.mpr none)
    rw [Outcome.returns_bind_iff]
    exact ⟨fun ⟨items, listed, _⟩ _ => ⟨items, listed⟩,
      fun returns => (returns filled).imp fun items listed => ⟨listed, Outcome.returns_ok _⟩⟩

/-- The rules of a collection with items are its pairs in order; one without items has none. -/
theorem firstForm_cases (ruled : rulesOfCollection settings data collection = .ok own)
    (isName : Text → Bool) :
    RuleTable.firstForm isName own = none ∧ ¬ Declares settings data isName collection ∨
      ∃ items pair, RuleTable.firstForm isName own = some (.text (pair.form items.length)) ∧
        ∀ later, Decides settings data isName (collection :: later) collection items pair := by
  rw [rulesOfCollection] at ruled
  split at ruled
  · rename_i noPairs
    obtain rfl := Except.ok.inj ruled
    refine .inl ⟨rfl, ?_⟩
    rintro ⟨-, pair, isPair, -⟩
    rw [List.isEmpty_iff.mp noPairs] at isPair
    cases isPair
  · obtain ⟨items, listed, counted⟩ := Outcome.bind_eq_ok_iff.mp ruled
    obtain rfl := Except.ok.inj counted
    split
    · rename_i noItems
      refine .inl ⟨rfl, ?_⟩
      rintro ⟨⟨others, isListed, filled⟩, -⟩
      obtain rfl := Except.ok.inj (listed.symm.trans isListed)
      exact filled (List.length_eq_zero_iff.mp noItems)
    · rename_i someItems
      have filled : items ≠ [] := fun none => someItems (by rw [none]; rfl)
      rw [RuleTable.firstForm, List.find?_map, Option.map_map]
      cases found : collection.grammarPairs.find? ((fun rule => isName rule.1) ∘ fun pair =>
          (pair.name, pair.form items.length)) with
      | none =>
          refine .inl ⟨rfl, ?_⟩
          rintro ⟨-, pair, isPair, named⟩
          exact List.find?_eq_none.mp found pair isPair named
      | some pair =>
          obtain ⟨named, before, after, pairs, others⟩ := List.find?_eq_some_iff_append.mp found
          refine .inr ⟨items, pair, rfl, fun later =>
            ⟨⟨[], later, rfl, List.forall_mem_nil _⟩, listed, filled, ⟨before, after, pairs, ?_⟩, named⟩⟩
          intro other isBefore
          simpa using others other isBefore

/-- Among the rules of all collections, a name has the form that the first collection which declares it
gives to it. -/
theorem firstForm_flatten_cases
    (ruled : List.Forall₂ (fun collection own => rulesOfCollection settings data collection = .ok own)
      collections each) (isName : Text → Bool) :
    RuleTable.firstForm isName each.flatten = none ∧
        (∀ collection ∈ collections, ¬ Declares settings data isName collection) ∨
      ∃ collection items pair,
        RuleTable.firstForm isName each.flatten = some (.text (pair.form items.length)) ∧
          Decides settings data isName collections collection items pair := by
  induction ruled with
  | nil => exact .inl ⟨rfl, nofun⟩
  | @cons first own later each ruledFirst ruledLater ih =>
      rw [List.flatten_cons, RuleTable.firstForm_append]
      rcases firstForm_cases ruledFirst isName with ⟨noForm, silent⟩ | ⟨items, pair, form, decides⟩
      · rw [noForm, Option.none_or]
        rcases ih with ⟨noLater, others⟩ | ⟨collection, items, pair, form, decides⟩
        · exact .inl ⟨noLater, List.forall_mem_cons.mpr ⟨silent, others⟩⟩
        · exact .inr ⟨collection, items, pair, form, decides.behind silent⟩
      · exact .inr ⟨first, items, pair, by rw [form, Option.some_or], decides later⟩

namespace RuleTable

variable {table result : RuleTable} {added : Nat}

/-- Going through the collections adds all their rules in order. -/
theorem exists_rules_of_addRulesOf
    (returned : table.addRulesOf settings data collections = .ok (added, result)) :
    ∃ each, List.Forall₂ (fun collection own => rulesOfCollection settings data collection = .ok own)
      collections each ∧ table.addNew each.flatten = .ok (added, result) := by
  induction collections generalizing table added with
  | nil => exact ⟨[], .nil, returned⟩
  | cons collection collections ih =>
      obtain ⟨own, ruled, returned⟩ := Outcome.bind_eq_ok_iff.mp returned
      obtain ⟨⟨ownCount, next⟩, addedOwn, returned⟩ := Outcome.bind_eq_ok_iff.mp returned
      obtain ⟨⟨laterCount, final⟩, addedLater, counted⟩ := Outcome.bind_eq_ok_iff.mp returned
      obtain ⟨rfl, rfl⟩ := Prod.mk.inj (Except.ok.inj counted)
      obtain ⟨each, ruledLater, later⟩ := ih addedLater
      refine ⟨own :: each, .cons ruled ruledLater, ?_⟩
      rw [List.flatten_cons, addNew_append, addedOwn, Outcome.ok_bind]
      dsimp only
      rw [later]
      rfl

theorem returns_addRulesOf_iff (isOpen : table.IsOpen) :
    Outcome.Returns (table.addRulesOf settings data collections) ↔
      ∀ collection ∈ collections, Outcome.Returns (rulesOfCollection settings data collection) := by
  induction collections generalizing table with
  | nil => exact iff_of_true (Outcome.returns_ok _) nofun
  | cons collection collections ih =>
      rw [addRulesOf, List.forall_mem_cons, Outcome.returns_bind_iff]
      constructor
      · rintro ⟨own, ruled, returns⟩
        obtain ⟨⟨count, next⟩, addedOwn, returns⟩ := Outcome.returns_bind_iff.mp returns
        obtain ⟨gained, adds, -⟩ := exists_adds addedOwn
        exact ⟨⟨own, ruled⟩, (ih (adds.isOpen_iff.mpr isOpen)).mp returns.of_bind⟩
      · rintro ⟨⟨own, ruled⟩, others⟩
        obtain ⟨count, addedOwn⟩ := addNew_of_isOpen isOpen own
        obtain ⟨gained, adds, -⟩ := exists_adds addedOwn
        refine ⟨own, ruled, Outcome.returns_bind_iff.mpr ⟨_, addedOwn, ?_⟩⟩
        exact ((ih (adds.isOpen_iff.mpr isOpen)).mpr others).bind fun _ _ => Outcome.returns_ok _

/-- An open table gets the rules that the context of a case is built with. -/
theorem addCollectionRules_withRules {registry : Registry} (isOpen : table.IsOpen)
    (returned : table.addCollectionRules settings registry data = .ok (added, result)) :
    ∃ new, collectionRules settings registry data = .ok new ∧ result = table.withRules new := by
  obtain ⟨each, ruled, addedAll⟩ := exists_rules_of_addRulesOf returned
  refine ⟨each.flatten, Outcome.bind_eq_ok_iff.mpr ⟨each, Outcome.mapM_eq_ok_iff.mpr ruled, rfl⟩, ?_⟩
  obtain ⟨count, all⟩ := addNew_of_isOpen isOpen each.flatten
  exact (Prod.mk.inj (Except.ok.inj (addedAll.symm.trans all))).2

/-- Three collections that have words in common, one of them without items. -/
def sharedWords : Registry := .ofList [
  Registry.recordCollection "LENINGEN" "LENING_" [] [⟨"schuld", "leningen"⟩] [],
  Registry.recordCollection "SCHULDEN" "SCHULD_" []
    [⟨"post", "posten"⟩, ⟨"schuld", "schulden"⟩, ⟨"Schuld", "Schulden"⟩] [],
  Registry.recordCollection "VORDERINGEN" "VORDERING_" [] [⟨"SCHULD", "SCHULDEN"⟩, ⟨"eis", "eisen"⟩] []]

/-- Two debts and a claim. -/
def debtsAndClaim : CaseData := {
  collections := [(.text "schulden", .list [.object [], .object []]),
    (.text "vorderingen", .list [.object []])]
  today := { year := 2026, month := 2, day := 14 } }

end RuleTable

end Collections

end Grammar

end Covenant
