import Covenant.Proofs.Case.Layers
import Covenant.Proofs.Naming.Words
import Covenant.Proofs.Value.Members
import Mathlib.Data.List.Nodup

/-!
# The names that collections are counted under

Every collection brings two names into the context of a case: one with the number of its items and
one that says whether there are any.  When no field has such a name and no other derived name is the
same, the context keeps what was counted, whatever custom placeholders say.
-/

namespace Covenant

/-- The name for the number of items of a collection. -/
def Collection.countName (collection : Collection) : Text := "Aantal" ++ Naming.pascal collection.name

/-- The name that says whether a collection has any items. -/
def Collection.presenceName (collection : Collection) : Text :=
  "Heeft" ++ Naming.pascal collection.name

/-- The names for the numbers of items of two collections are not the same in any letter case, and
neither are those that say whether there are any. -/
structure Registry.CountsApart (registry : Registry) : Prop where
  counts : (registry.toList.map fun collection => Text.lower collection.countName).Nodup
  presences : (registry.toList.map fun collection => Text.lower collection.presenceName).Nodup

/-- Names of ASCII letters that differ in more than underscores and the case of letters are counted
apart. -/
theorem Registry.countsApart_of_nodup {registry : Registry}
    (ascii : ∀ collection ∈ registry.toList, Text.IsAscii collection.name)
    (distinct : (registry.toList.map fun collection =>
      Text.lower (Text.removeChar '_' collection.name)).Nodup) : registry.CountsApart := by
  have behind {start : Text} (startAscii : Text.IsAscii start) :
      (registry.toList.map fun collection =>
        Text.lower (start ++ Naming.pascal collection.name)).Nodup := by
    have names : (registry.toList.map fun collection =>
          Text.lower (start ++ Naming.pascal collection.name)) =
        (registry.toList.map fun collection =>
          Text.lower (Text.removeChar '_' collection.name)).map (Text.lower start ++ ·) := by
      rw [List.map_map]
      exact List.map_congr_left fun collection registered =>
        Naming.lower_append_pascal startAscii (ascii collection registered)
    rw [names]
    exact distinct.map (List.append_right_injective _)
  exact ⟨behind (by decide), behind (by decide)⟩

theorem Registry.countsApart_usual : Registry.usual.CountsApart :=
  countsApart_of_nodup (by decide +kernel) (by decide +kernel)

/-- A name to which pairs give one value only has its text. -/
theorem firstText_storedTexts_ofPairs {pairs : List (Text × Value)} {name : Text} {value : Value}
    (given : (name, value) ∈ pairs)
    (only : ∀ pair ∈ pairs, Text.sameLower pair.1 name = true → pair.2 = value) :
    firstText (storedTexts (Members.ofPairs pairs)) name = some value.stored := by
  obtain ⟨member, isMember, sameName⟩ := List.mem_map.mp (Members.name_mem_ofPairs given)
  have hasText : (firstText (storedTexts (Members.ofPairs pairs)) name).isSome :=
    firstText_isSome ⟨(member.1, member.2.stored), List.mem_map_of_mem isMember, by
      simp [sameName, Text.sameLower]⟩
  obtain ⟨text, isText⟩ := Option.isSome_iff_exists.mp hasText
  obtain ⟨pair, isPair, same, rfl⟩ := exists_of_firstText isText
  obtain ⟨⟨otherName, other⟩, isOther, rfl⟩ := List.mem_map.mp isPair
  rw [isText, ← only (otherName, other) (Members.mem_of_mem_ofPairs isOther) same]

namespace CaseContext

variable {settings : Settings} {registry : Registry} {data : CaseData} {collection : Collection}

/-! ### Parties and children -/

theorem exists_rest_of_partiesNames {number : Nat} {parties : List Party}
    {names : List (Text × Value)} (named : partiesNames number parties = .ok names) :
    ∀ pair ∈ names, ∃ rest, pair.1 = 'P' :: rest := by
  induction parties generalizing number names with
  | nil =>
      obtain rfl := Except.ok.inj named
      exact fun pair member => nomatch member
  | cons party parties ih =>
      obtain ⟨own, nameOwn, named⟩ := Outcome.bind_eq_ok_iff.mp named
      obtain ⟨later, nameLater, same⟩ := Outcome.bind_eq_ok_iff.mp named
      obtain rfl := Except.ok.inj same
      intro pair member
      rcases List.mem_append.mp member with isOwn | isLater
      · obtain ⟨callName, -, nameOwn⟩ := Outcome.bind_eq_ok_iff.mp nameOwn
        obtain ⟨name, -, nameOwn⟩ := Outcome.bind_eq_ok_iff.mp nameOwn
        obtain ⟨fullName, -, nameOwn⟩ := Outcome.bind_eq_ok_iff.mp nameOwn
        obtain ⟨surname, -, nameOwn⟩ := Outcome.bind_eq_ok_iff.mp nameOwn
        obtain ⟨initials, -, nameOwn⟩ := Outcome.bind_eq_ok_iff.mp nameOwn
        obtain ⟨address, -, nameOwn⟩ := Outcome.bind_eq_ok_iff.mp nameOwn
        obtain rfl := Except.ok.inj nameOwn
        simp only [List.mem_cons, List.not_mem_nil, or_false] at isOwn
        rcases isOwn with rfl | rfl | rfl | rfl | rfl | rfl | rfl | rfl | rfl | rfl
        all_goals exact ⟨_, rfl⟩
      · exact ih nameLater pair isLater

/-- The names for the children of a case. -/
def childNames : List Text := ["AantalKinderen", "AantalMinderjarigeKinderen", "HeeftKinderen",
  "HeeftMinderjarigeKinderen", "KinderenNamen", "MinderjarigeKinderenNamen"]

theorem names_childrenNames {names : List (Text × Value)}
    (named : childrenNames settings data = .ok names) : names.map (·.1) = childNames := by
  obtain ⟨all, -, named⟩ := Outcome.bind_eq_ok_iff.mp named
  obtain ⟨minors, -, named⟩ := Outcome.bind_eq_ok_iff.mp named
  obtain rfl := Except.ok.inj named
  rfl

/-! ### Fresh names -/

/-- A name that no field has, under its own name or an alias, and that is none for the children. -/
structure IsFresh (data : CaseData) (name : Text) : Prop where
  fields : ∀ fields, ContextMap.ofPairs data.fields = .ok fields → fields.withAliases.lookup name = none
  children : ∀ own ∈ childNames, Text.sameLower own name = false

theorem ofPairs_eq_fieldContext {layers : LowerLayers} (ofCase : layers.OfCase settings registry data) :
    ContextMap.ofPairs data.fields = .ok (fieldContext layers) := by
  have insertAll {fields : KeyedValues} {pairs : List (Text × Text)}
      (are : List.Forall₂ (fun field pair => field.1 = .text pair.1 ∧ field.2.stored = pair.2)
        fields pairs) (start : ContextMap) :
      fields.foldlM (fun context field => do
          return context.insert (← field.1.asText) field.2.stored) start =
        (Except.ok (start.insertTexts pairs) : Outcome ContextMap) := by
    induction are generalizing start with
    | nil => rfl
    | cons own later ih =>
        obtain ⟨isKey, isText⟩ := own
        rw [List.foldlM_cons, isKey, isText]
        exact ih _
  exact insertAll ofCase.fields {}

/-- A fresh name has the text that is derived for it. -/
theorem firstText_named_of_isFresh {layers : LowerLayers} {name text : Text}
    (ofCase : layers.OfCase settings registry data) (fresh : IsFresh data name)
    (derived : firstText layers.derived name = some text) : firstText layers.named name = some text := by
  have noField := fresh.fields _ (ofPairs_eq_fieldContext ofCase)
  rw [withAliases_fieldContext, ContextMap.lookup_insertNewTexts, lookup_fieldContext,
    Option.or_eq_none_iff] at noField
  simp only [LowerLayers.named, LowerLayers.added, firstText_append, noField.1, noField.2, derived,
    Option.none_or, Option.some_or]

theorem exists_collectionNames {layers : LowerLayers} (ofCase : layers.OfCase settings registry data)
    (registered : collection ∈ registry.toList) :
    ∃ names, collectionNames settings data collection = .ok names := by
  obtain ⟨names, derived, -⟩ := ofCase.derived
  obtain ⟨parties, -, derived⟩ := Outcome.bind_eq_ok_iff.mp derived
  obtain ⟨children, -, derived⟩ := Outcome.bind_eq_ok_iff.mp derived
  obtain ⟨collections, nameCollections, -⟩ := Outcome.bind_eq_ok_iff.mp derived
  obtain ⟨own, -, named⟩ := Outcome.exists_of_forall₂
    (List.Forall₂.flip (Outcome.mapM_eq_ok_iff.mp nameCollections)) registered
  exact ⟨own, named⟩

/-- A fresh name has the value that collections derive for it, if they agree on one. -/
theorem firstText_derived_of_isFresh {layers : LowerLayers} {name : Text} {value : Value}
    {names : List (Text × Value)} (ofCase : layers.OfCase settings registry data)
    (fresh : IsFresh data name) (notParty : ∀ rest, Text.sameLower ('P' :: rest) name = false)
    (registered : collection ∈ registry.toList)
    (named : collectionNames settings data collection = .ok names) (given : (name, value) ∈ names)
    (only : ∀ other ∈ registry.toList, ∀ names, collectionNames settings data other = .ok names →
      ∀ pair ∈ names, Text.sameLower pair.1 name = true → pair.2 = value) :
    firstText layers.derived name = some value.stored := by
  obtain ⟨all, derived, areDerived⟩ := ofCase.derived
  obtain ⟨parties, nameParties, derived⟩ := Outcome.bind_eq_ok_iff.mp derived
  obtain ⟨children, nameChildren, derived⟩ := Outcome.bind_eq_ok_iff.mp derived
  obtain ⟨collections, nameCollections, same⟩ := Outcome.bind_eq_ok_iff.mp derived
  obtain rfl := Except.ok.inj same
  rw [areDerived]
  refine firstText_storedTexts_ofPairs ?given fun pair member isName => ?only
  case given =>
    obtain ⟨own, isOwn, namedOwn⟩ := Outcome.exists_of_forall₂
      (List.Forall₂.flip (Outcome.mapM_eq_ok_iff.mp nameCollections)) registered
    obtain rfl := Except.ok.inj (named.symm.trans namedOwn)
    exact List.mem_append_right _ (List.mem_flatten.mpr ⟨names, isOwn, given⟩)
  case only =>
    rcases List.mem_append.mp member with member | member
    · rcases List.mem_append.mp member with isParty | isChild
      · obtain ⟨rest, starts⟩ := exists_rest_of_partiesNames nameParties pair isParty
        rw [starts, notParty rest] at isName
        cases isName
      · have known : pair.1 ∈ childNames := by
          rw [← names_childrenNames nameChildren]
          exact List.mem_map_of_mem isChild
        rw [fresh.children _ known] at isName
        cases isName
    · obtain ⟨own, isOwn, member⟩ := List.mem_flatten.mp member
      obtain ⟨other, isOther, namedOther⟩ := Outcome.exists_of_mem_mapM nameCollections isOwn
      exact only other isOther own namedOther pair member isName

/-! ### Collections -/

/-- How a context says whether there are any items. -/
def presenceText (count : Nat) : Text := if count = 0 then "false" else "true"

theorem stored_truth (count : Nat) : (truth (count != 0)).stored = presenceText count := by
  cases count <;> rfl

theorem collectionNames_eq_ok_iff {names : List (Text × Value)} :
    collectionNames settings data collection = .ok names ↔
      ∃ items, collection.items settings data [] = .ok items ∧
        names = [(collection.countName, countText items.length),
          (collection.presenceName, truth (items.length != 0))] := by
  rw [collectionNames, Outcome.bind_eq_ok_iff]
  exact exists_congr fun items => and_congr_right fun _ =>
    ⟨fun same => (Except.ok.inj same).symm, fun same => congrArg Except.ok same.symm⟩

theorem not_sameLower_count_presence (first second : Collection) :
    Text.sameLower first.countName second.presenceName = false :=
  Bool.eq_false_iff.mpr fun same =>
    absurd (Text.toLower_eq_of_sameLower (by decide) (by decide) same) (by decide)

/-- The context of a case holds, below the rules and clauses that replace names, how many items of a
collection are stored with the case. -/
theorem exists_counted {layers : LowerLayers} (ofCase : layers.OfCase settings registry data)
    (apart : registry.CountsApart) (registered : collection ∈ registry.toList)
    (freshCount : IsFresh data collection.countName)
    (freshPresence : IsFresh data collection.presenceName) :
    ∃ items, collection.items settings data [] = .ok items ∧
      firstText layers.named collection.countName = some (Text.ofNat items.length) ∧
      firstText layers.named collection.presenceName = some (presenceText items.length) := by
  obtain ⟨names, named⟩ := exists_collectionNames ofCase registered
  obtain ⟨items, listed, rfl⟩ := collectionNames_eq_ok_iff.mp named
  have notParty {c : Char} (rest : Text) (ascii : c.toNat < 0x80) (notP : 'P'.toLower ≠ c.toLower)
      (other : Text) : Text.sameLower ('P' :: other) (c :: rest) = false :=
    Bool.eq_false_iff.mpr fun same => notP (Text.toLower_eq_of_sameLower (by decide) ascii same)
  refine ⟨items, listed, ?count, ?presence⟩
  case count =>
    refine firstText_named_of_isFresh ofCase freshCount
      (firstText_derived_of_isFresh ofCase freshCount (notParty _ (by decide) (by decide)) registered
        named List.mem_cons_self fun other isOther own namedOther pair member isName => ?_)
    obtain ⟨otherItems, listedOther, rfl⟩ := collectionNames_eq_ok_iff.mp namedOther
    rcases List.mem_pair.mp member with rfl | rfl
    · obtain rfl := List.inj_on_of_nodup_map apart.counts isOther registered (beq_iff_eq.mp isName)
      rw [Except.ok.inj (listed.symm.trans listedOther)]
    · rw [Text.sameLower, BEq.comm, ← Text.sameLower, not_sameLower_count_presence] at isName
      cases isName
  case presence =>
    rw [← stored_truth]
    refine firstText_named_of_isFresh ofCase freshPresence
      (firstText_derived_of_isFresh ofCase freshPresence (notParty _ (by decide) (by decide))
        registered named (by simp) fun other isOther own namedOther pair member isName => ?_)
    obtain ⟨otherItems, listedOther, rfl⟩ := collectionNames_eq_ok_iff.mp namedOther
    rcases List.mem_pair.mp member with rfl | rfl
    · rw [not_sameLower_count_presence] at isName
      cases isName
    · obtain rfl := List.inj_on_of_nodup_map apart.presences isOther registered (beq_iff_eq.mp isName)
      rw [Except.ok.inj (listed.symm.trans listedOther)]

end CaseContext

end Covenant
