import Covenant.Proofs.Case.DerivedNames
import Covenant.Proofs.Collection.Lookup
import Covenant.Proofs.Text.Digits
import Covenant.Resolver

/-!
# Loops and the counts of collections

A context says how many items a collection has, whether it has any, and gives words in the form for
their number.  These are the items stored with the case.  A loop also finds records in the context
itself: in custom placeholders, in aliases of fields and in whatever else has the name of the
collection.  So the two speak of the same items if and only if something is stored for the
collection, or the context holds no records for it either.
-/

namespace Covenant

namespace Grammar

variable {settings : Settings} {data : CaseData} {collection : Collection}

/-- The rules of collections, one after the other. -/
def rulesOf (settings : Settings) (data : CaseData) (collections : List Collection) :
    Outcome (List (Text × Text)) := do
  return (← collections.mapM (rulesOfCollection settings data)).flatten

/-- The words of a collection in the form for a number of items; there are none without items. -/
def wordsFor (collection : Collection) (count : Nat) : List (Text × Text) :=
  if count = 0 then [] else collection.grammarPairs.map fun pair => (pair.name, pair.form count)

theorem rulesOfCollection_eq {items : List Item} (listed : collection.items settings data [] = .ok items) :
    rulesOfCollection settings data collection = .ok (wordsFor collection items.length) := by
  rw [rulesOfCollection, wordsFor]
  split
  · rename_i noPairs
    rw [List.isEmpty_iff.mp noPairs]
    split <;> rfl
  · rw [listed]
    rfl

/-- The rules of a collection stand between those of the collections in front of it and behind it. -/
theorem exists_rulesOf {front behind : List Collection} {rules : List (Text × Text)} {items : List Item}
    (ruled : rulesOf settings data (front ++ collection :: behind) = .ok rules)
    (listed : collection.items settings data [] = .ok items) :
    ∃ earlier later, rulesOf settings data front = .ok earlier ∧
      rulesOf settings data behind = .ok later ∧
      rules = earlier ++ wordsFor collection items.length ++ later := by
  obtain ⟨each, ruledEach, same⟩ := Outcome.bind_eq_ok_iff.mp ruled
  obtain rfl := Except.ok.inj same
  rw [List.mapM_append] at ruledEach
  obtain ⟨eachFront, ruledFront, ruledEach⟩ := Outcome.bind_eq_ok_iff.mp ruledEach
  obtain ⟨eachBehind, ruledBehind, same⟩ := Outcome.bind_eq_ok_iff.mp ruledEach
  obtain rfl := Except.ok.inj same
  rw [List.mapM_cons, rulesOfCollection_eq listed, Outcome.ok_bind] at ruledBehind
  obtain ⟨later, ruledLater, same⟩ := Outcome.bind_eq_ok_iff.mp ruledBehind
  obtain rfl := Except.ok.inj same
  refine ⟨eachFront.flatten, later.flatten, Outcome.bind_eq_ok_iff.mpr ⟨_, ruledFront, rfl⟩,
    Outcome.bind_eq_ok_iff.mpr ⟨_, ruledLater, rfl⟩, ?_⟩
  simp

/-- The first pair of words with a name gives it the form for the number of items. -/
theorem firstText_wordsFor {before after : List GrammarPair} {pair : GrammarPair}
    (pairs : collection.grammarPairs = before ++ pair :: after)
    (isFirst : ∀ other ∈ before, Text.sameLower other.name pair.name = false) (count : Nat) :
    firstText (wordsFor collection count) pair.name = if count = 0 then none else some (pair.form count) := by
  rw [wordsFor]
  split
  · rfl
  · have noneBefore : firstText (before.map fun other => (other.name, other.form count)) pair.name = none := by
      rw [firstText, Option.map_eq_none_iff, List.find?_eq_none]
      intro given member
      obtain ⟨other, isBefore, rfl⟩ := List.mem_map.mp member
      simp [isFirst other isBefore]
    rw [pairs, List.map_append, firstText_append, noneBefore, List.map_cons, firstText_cons,
      if_pos (show Text.sameLower pair.name pair.name = true from beq_self_eq_true _), Option.none_or]

end Grammar

namespace CaseContext

variable {settings : Settings} {registry : Registry} {data : CaseData} {collection : Collection}

/-- The layers of a context speak of a collection as of one with so many items. -/
structure CountsAs (settings : Settings) (registry : Registry) (data : CaseData)
    (layers : LowerLayers) (collection : Collection) (count : Nat) : Prop where
  number : firstText layers.named collection.countName = some (Text.ofNat count)
  presence : firstText layers.named collection.presenceName = some (presenceText count)
  /-- Words that nothing in front of the collection gives are there in the form for the number of
  items; without items they are left to the collections behind it. -/
  words : ∀ front behind, registry.toList = front ++ collection :: behind →
    ∃ earlier later, Grammar.rulesOf settings data front = .ok earlier ∧
      Grammar.rulesOf settings data behind = .ok later ∧
      ∀ before pair after, collection.grammarPairs = before ++ pair :: after →
        (∀ other ∈ before, Text.sameLower other.name pair.name = false) →
        firstText (layers.rules.reverse ++ (layers.named ++ layers.aliases) ++ earlier) pair.name = none →
        firstText layers.all pair.name =
          if count = 0 then firstText later pair.name else some (pair.form count)

/-- A context speaks of the items that are stored with the case. -/
theorem exists_countsAs {layers : LowerLayers} (ofCase : layers.OfCase settings registry data)
    (apart : registry.CountsApart) (registered : collection ∈ registry.toList)
    (freshCount : IsFresh data collection.countName)
    (freshPresence : IsFresh data collection.presenceName) :
    ∃ stored, collection.items settings data [] = .ok stored ∧
      CountsAs settings registry data layers collection stored.length := by
  obtain ⟨stored, listed, number, presence⟩ :=
    exists_counted ofCase apart registered freshCount freshPresence
  refine ⟨stored, listed, number, presence, fun front behind split => ?_⟩
  have ruled : Grammar.rulesOf settings data (front ++ collection :: behind) = .ok layers.collectionRules := by
    rw [← split]
    exact ofCase.collectionRules
  obtain ⟨earlier, later, ruledFront, ruledBehind, rules⟩ := Grammar.exists_rulesOf ruled listed
  refine ⟨earlier, later, ruledFront, ruledBehind, fun before pair after pairs isFirst notGiven => ?_⟩
  rw [LowerLayers.all, rules, ← List.append_assoc, ← List.append_assoc, firstText_append,
    firstText_append, notGiven, Option.none_or, Grammar.firstText_wordsFor pairs isFirst]
  split
  · exact Option.none_or
  · exact Option.some_or

/-- The number of items is read off the context. -/
theorem CountsAs.length_eq {layers : LowerLayers} {count other : Nat}
    (counts : CountsAs settings registry data layers collection count)
    (otherCounts : CountsAs settings registry data layers collection other) : count = other :=
  Text.ofNat_injective (Option.some.inj (counts.number.symm.trans otherCounts.number))

end CaseContext

namespace Resolver

open CaseContext

/-- Where a loop looks up its collection and the items of it in a context. -/
def loopSource (resolver : Resolver) (data : CaseData) (context : ContextMap) : Loop.Source :=
  { settings := resolver.settings, registry := resolver.registry, data,
    surroundings := context.toMembers }

/-- The accounts of the children, with the name of the bank and one pair of words. -/
def childAccounts : Collection :=
  Registry.recordCollection "BANKREKENINGEN_KINDEREN" "BANKREKENING_"
    [{ name := "BANK", source := "bank" }] [⟨"rekeningnummer", "rekeningnummers"⟩] []

def accountsResolver : Resolver := { registry := .ofList [childAccounts] }

/-- A case with two accounts in a field. -/
def accountsData (field : Text) : CaseData := {
  fields := [(.text field, .text "[\x7b\"bank\": \"A\"\x7d, \x7b\"bank\": \"B\"\x7d]")]
  today := { year := 2025, month := 9, day := 30 } }

theorem isFresh_of_evaluated {data : CaseData} {name : Text}
    (fields : ((ContextMap.ofPairs data.fields).toOption.map fun fields =>
      fields.withAliases.lookup name) = some none)
    (children : ∀ own ∈ childNames, Text.sameLower own name = false) : IsFresh data name where
  fields context read := by
    rw [read] at fields
    exact Option.some.inj fields
  children := children

end Resolver

end Covenant
