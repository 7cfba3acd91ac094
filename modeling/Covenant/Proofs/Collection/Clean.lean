import Covenant.Proofs.Case.Clean
import Covenant.Proofs.Collection.Lookup
import Covenant.Proofs.Template.TokenPasses
import Covenant.Proofs.Value.Reader

/-!
# Items without delimiters

The items of a collection are children of the case or stored records.  Their variables are worded
from stored values, so they hold no delimiters when those hold none.  A list that is looked for
among texts, where a collection is not stored, has no records in it, because a record in JSON is
written with braces.
-/

namespace Covenant

variable {settings : Settings} {data : CaseData} {text : Text}

namespace PartyReference

theorem clean_childNames {children : List Child} (clean : ∀ child ∈ children, child.IsClean)
    (written : childNames children = .ok text) : Clean text := by
  obtain ⟨names, read, rfl⟩ := Outcome.map_eq_ok_iff.mp written
  refine Wording.clean_enumeration fun name isName => ?_
  obtain ⟨child, isChild, own⟩ := Outcome.exists_of_mem_mapM read isName
  exact (clean child isChild).clean_fullName own

theorem clean_childLabel (clean : data.IsClean) {digits reference : Text} (isClean : Clean reference)
    (written : childLabel data digits reference = .ok text) : Clean text := by
  obtain ⟨number, -, written⟩ := Outcome.bind_eq_ok_iff.mp written
  split at written
  · rename_i child found
    exact (clean.children child (List.mem_of_find?_eq_some found)).clean_fullName written
  · obtain rfl := Except.ok.inj written
    exact isClean

theorem clean_label (clean : data.IsClean) {reference : Value} (isClean : reference.IsClean)
    (written : label settings data reference = .ok text) : Clean text := by
  have parties := clean.parties
  have referenceClean : Clean (Text.trim reference.plain) := Lacks.trim isClean
  rw [label] at written
  split at written
  · obtain rfl := Except.ok.inj written
    exact Lacks.nil
  · dsimp only at written
    split at written
    · rename_i isParties
      rw [isParties] at parties
      exact (parties _ List.mem_cons_self).clean_fullName written
    · split at written
      · rename_i isParties
        rw [isParties] at parties
        exact (parties _ (List.mem_cons_of_mem _ List.mem_cons_self)).clean_fullName written
      · split at written
        · obtain rfl := Except.ok.inj written
          decide
        · split at written
          · exact clean_childLabel clean referenceClean written
          · split at written
            · exact clean_childNames (clean.minors _) written
            · split at written
              · exact clean_childNames clean.children written
              · obtain rfl := Except.ok.inj written
                exact referenceClean

end PartyReference

namespace FieldKind

theorem clean_bankName {name : Text} (clean : Clean name) : Clean (bankName name) := by
  rw [bankName]
  split
  · exact Lacks.nil
  · exact (show Clean "de " by decide).append clean.trim

theorem clean_write (clean : data.IsClean) {kind : FieldKind} {value : Value} (isClean : value.IsClean)
    (written : kind.write settings data value = .ok text) : Clean text := by
  unfold write at written
  split at written
  · obtain rfl := Except.ok.inj written
    exact Lacks.nil
  · split at written
    · obtain rfl := Except.ok.inj written
      exact isClean
    · obtain rfl := Except.ok.inj written
      exact Wording.clean_code isClean
    · exact PartyReference.clean_label clean isClean written
    · rw [debtorLabel] at written
      split at written
      · obtain rfl := Except.ok.inj written
        decide
      · exact PartyReference.clean_label clean isClean written
    · obtain rfl := Except.ok.inj written
      exact clean_bankName isClean
    · obtain rfl := Except.ok.inj written
      exact Wording.clean_accountNumber isClean
    · exact Wording.clean_amount isClean written
    · obtain rfl := Except.ok.inj written
      exact Wording.clean_date? _

end FieldKind

namespace Collection

/-! ### Variables -/

theorem cleanValues_recordValues (clean : data.IsClean) {stem : Text} {fields : List ItemField}
    {record values : Members} (recordClean : record.AreClean)
    (given : recordValues settings stem data fields record = .ok values) :
    Loop.CleanValues values := by
  intro pair isPair
  rcases mem_recordValues given isPair with ⟨field, -, wording, written, rfl⟩ | ⟨key, stored, member, rfl⟩
  · show Clean wording
    rw [fieldValue] at written
    split at written
    · obtain rfl := Except.ok.inj written
      exact (recordClean.get _).orElse (show Clean [] from Lacks.nil)
    · exact FieldKind.clean_write clean (recordClean.get _) written
  · show Clean _
    split
    · exact Lacks.nil
    · have own : stored.IsClean := recordClean (key, stored) member
      exact own

theorem cleanValues_childValues {stem : Text} {child : Child} (clean : child.IsClean) {values : Members}
    (given : childValues stem data child = .ok values) : Loop.CleanValues values := by
  obtain ⟨callName, isCallName, given⟩ := Outcome.bind_eq_ok_iff.mp given
  obtain ⟨surname, isSurname, given⟩ := Outcome.bind_eq_ok_iff.mp given
  obtain ⟨fullName, isFullName, given⟩ := Outcome.bind_eq_ok_iff.mp given
  obtain rfl := Except.ok.inj given
  have callNameClean := isClean_callNameOf clean.callName clean.firstNames isCallName
  have surnameClean := Wording.clean_surname clean.insertion clean.surname isSurname
  have fullNameClean := clean.clean_fullName isFullName
  have ageClean : Clean (((child.age? data.ageDate).map Text.ofInt).getD []) := by
    cases child.age? data.ageDate with
    | none => exact Lacks.nil
    | some age => exact Clean.ofInt age
  simp only [Loop.CleanValues, List.forall_mem_cons, List.not_mem_nil, false_imp_iff,
    implies_true, and_true]
  exact ⟨clean.firstNames, surnameClean, fullNameClean, Wording.clean_date? _, clean.birthPlace,
    callNameClean, ageClean, Wording.clean_date? _⟩

/-! ### Items -/

end Collection

/-- A child of the case, or a record, without delimiters. -/
def Item.IsClean : Item → Prop
  | .child person => person.IsClean
  | .record members => members.AreClean

namespace Collection

theorem cleanValues_itemValues (clean : data.IsClean) {collection : Collection} {item : Item}
    (itemClean : item.IsClean) {values : Members}
    (given : collection.itemValues settings data item = .ok values) : Loop.CleanValues values := by
  cases item with
  | child child => exact cleanValues_childValues itemClean given
  | record members =>
      unfold itemValues at given
      split at given
      · rename_i isChild
        cases isChild
      · rename_i isRecord _
        cases isRecord
        exact cleanValues_recordValues clean itemClean given
      · rename_i isRecord _
        cases isRecord
        exact cleanValues_recordValues clean itemClean given

theorem holdsCleanRecords_of_brace_not_mem {content : Text} (free : '{' ∉ content) :
    HoldsCleanRecords (.text content) := by
  intro items listed members member
  rw [listIn] at listed
  split at listed
  · rename_i items' read
    obtain rfl := Except.ok.inj listed
    exact absurd member (JsonReader.holdsNoRecord_ofJson free read members)
  · cases listed
  · obtain rfl := Except.ok.inj listed
    cases member

/-- Without delimiters in its plain form a value is no list, so it holds no records. -/
theorem holdsCleanRecords_of_isClean {value : Value} (clean : value.IsClean) :
    HoldsCleanRecords value := by
  cases value with
  | text content =>
      have lacks : Clean content := clean
      exact holdsCleanRecords_of_brace_not_mem fun brace => absurd (lacks _ brace) (by decide)
  | list items =>
      have lacks : Clean (Value.list items).plain := clean
      have bracket : '[' ∈ (Value.list items).plain := List.mem_cons_self
      exact absurd (lacks '[' bracket) (by decide)
  | _ =>
      intro items listed members member
      obtain rfl := Except.ok.inj listed
      cases member

theorem exists_of_storedUnder? {key : Text} {names : List (Text × Value)} {value : Value}
    (found : storedUnder? key names = some value) : ∃ name, (name, value) ∈ names := by
  simp only [storedUnder?, Option.map_eq_some_iff] at found
  obtain ⟨⟨name, stored⟩, found, rfl⟩ := found
  exact ⟨name, List.mem_reverse.mp (List.mem_of_find?_eq_some found)⟩

theorem exists_of_firstStored? {keys : List Text} {names : List (Text × Value)} {value : Value}
    (found : firstStored? keys names = some value) : ∃ name, (name, value) ∈ names := by
  obtain ⟨key, -, found⟩ := List.exists_of_findSome?_eq_some found
  exact exists_of_storedUnder? (Option.eq_some_of_filter_eq_some found)

theorem exists_of_lowerNames {pairs : KeyedValues} {names : List (Text × Value)}
    (read : lowerNames pairs = .ok names) {name : Text} {value : Value}
    (member : (name, value) ∈ names) : ∃ pair ∈ pairs, pair.2 = value := by
  obtain ⟨⟨key, stored⟩, isPair, own⟩ := Outcome.exists_of_mem_mapM read member
  obtain ⟨content, -, same⟩ := Outcome.bind_eq_ok_iff.mp own
  cases same
  exact ⟨_, isPair, rfl⟩

theorem holdsCleanRecords_of_storedValue? (clean : data.IsClean) {surroundings : Members}
    (records : ∀ pair ∈ surroundings, HoldsCleanRecords pair.2) {collection : Collection}
    {otherNames : List Text} {stored : Value}
    (found : collection.storedValue? otherNames data surroundings = .ok (some stored)) :
    HoldsCleanRecords stored := by
  obtain ⟨collections, readCollections, found⟩ := Outcome.bind_eq_ok_iff.mp found
  dsimp only at found
  split at found
  · rename_i value isStored
    cases found
    obtain ⟨name, member⟩ := exists_of_firstStored? isStored
    obtain ⟨pair, isPair, rfl⟩ := exists_of_lowerNames readCollections member
    exact clean.collections pair isPair
  · obtain ⟨fields, readFields, found⟩ := Outcome.bind_eq_ok_iff.mp found
    split at found
    · rename_i value isStored
      cases found
      obtain ⟨name, member⟩ := exists_of_firstStored? isStored
      obtain ⟨pair, isPair, rfl⟩ := exists_of_lowerNames readFields member
      exact holdsCleanRecords_of_isClean (clean.fields pair isPair)
    · obtain ⟨name, member⟩ := exists_of_firstStored? (Except.ok.inj found)
      obtain ⟨pair, isPair, same⟩ := List.mem_map.mp member
      cases same
      exact records pair isPair

theorem isClean_of_listed (clean : data.IsClean) {surroundings : Members}
    (records : ∀ pair ∈ surroundings, HoldsCleanRecords pair.2) {collection : Collection}
    {given : List Item} (listed : collection.items settings data surroundings = .ok given) {item : Item}
    (member : item ∈ given) : item.IsClean := by
  unfold items at listed
  split at listed
  · obtain rfl := Except.ok.inj listed
    obtain ⟨child, selected, rfl⟩ := List.mem_map.mp member
    exact clean.children child (ChildSelection.mem_of_selected _ selected)
  · obtain ⟨found, isFound, listed⟩ := Outcome.bind_eq_ok_iff.mp listed
    split at listed
    · obtain ⟨values, areValues, same⟩ := Outcome.bind_eq_ok_iff.mp listed
      obtain rfl := Except.ok.inj same
      obtain ⟨value, isValue, isItem⟩ := List.mem_filterMap.mp member
      split at isItem
      · cases isItem
        exact holdsCleanRecords_of_storedValue? clean records isFound _ areValues _ isValue
      · cases isItem
    · obtain rfl := Except.ok.inj listed
      cases member

/-- The items of a case without delimiters supply values without delimiters, when the names around
them hold no records with delimiters. -/
theorem suppliesClean (clean : data.IsClean) (registry : Registry) {surroundings : Members}
    (records : ∀ pair ∈ surroundings, HoldsCleanRecords pair.2) :
    Loop.SuppliesClean { settings, registry, data, surroundings } :=
  fun _ _ _ listed _ member _ given =>
    cleanValues_itemValues clean (isClean_of_listed clean records listed member) given

end Collection

end Covenant
