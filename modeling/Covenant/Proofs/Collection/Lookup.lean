import Covenant.Proofs.Outcome
import Covenant.Proofs.Value.Members
import Covenant.Template.Loop

/-!
# Where the records of a collection are found

What a case stores as a collection or as a field goes before what the names around it hold.  A loop
goes through the records that are found in this order, one after the other.  The variables of a record
are those of the fields of the collection and those of its own members.
-/

namespace Covenant

theorem Registry.mem_of_find? {registry : Registry} {name : Text} {collection : Collection}
    (found : registry.find? name = some collection) : collection ∈ registry.toList := by
  obtain ⟨before, after, listed, -⟩ := List.lookup_eq_some_iff.mp found
  rw [toList, listed]
  simp

/-- A collection that is registered under its own name, and no other with it, is found. -/
theorem Registry.find?_of_mem {registry : Registry}
    (keyed : ∀ entry ∈ registry.collections, entry.1 = Text.upper (Text.trim entry.2.name))
    (distinct : (registry.collections.map (·.1)).Nodup) {collection : Collection}
    (member : collection ∈ registry.toList) : registry.find? collection.name = some collection := by
  obtain ⟨entry, isEntry, rfl⟩ := List.mem_map.mp member
  obtain ⟨before, after, listed⟩ := List.append_of_mem isEntry
  rw [find?, ← keyed entry isEntry, List.lookup_eq_some_iff]
  refine ⟨before, after, listed, fun other earlier => ?_⟩
  rw [listed, List.map_append, List.nodup_append] at distinct
  have differs := distinct.2.2 other.1 (List.mem_map_of_mem earlier) entry.1 List.mem_cons_self
  simpa using differs.symm

theorem Registry.find?_usual {collection : Collection} (member : collection ∈ usual.toList) :
    usual.find? collection.name = some collection :=
  find?_of_mem (by decide +kernel) (by decide +kernel) member

/-- The children that are selected are children of the case. -/
theorem ChildSelection.mem_of_selected {settings : Settings} {data : CaseData}
    (selection : ChildSelection) {child : Child} (selected : child ∈ selection.children settings data) :
    child ∈ data.children := by
  have ofMarriage (isIncluded : Date → Date → Bool) (answer : Value)
      (isChild : child ∈ byMarriage data isIncluded answer) : child ∈ data.children := by
    rw [byMarriage] at isChild
    split at isChild
    · exact (List.mem_filter.mp isChild).1
    · split at isChild
      · exact isChild
      · cases isChild
  cases selection with
  | all => exact selected
  | minor => exact (List.mem_filter.mp selected).1
  | fromMarriage => exact ofMarriage _ _ selected
  | beforeMarriage => exact ofMarriage _ _ selected

namespace Collection

variable {settings : Settings} {data : CaseData} {collection : Collection} {fields : List ItemField}
  {otherNames : List Text}

/-- A child among the items of a collection is a child of the case. -/
theorem child_mem_of_listed {surroundings : Members} {items : List Item} {child : Child}
    (listed : collection.items settings data surroundings = .ok items)
    (member : .child child ∈ items) : child ∈ data.children := by
  rw [Collection.items.eq_def] at listed
  split at listed
  · obtain rfl := Except.ok.inj listed
    obtain ⟨other, selected, same⟩ := List.mem_map.mp member
    cases same
    exact ChildSelection.mem_of_selected _ selected
  · obtain ⟨stored, -, listed⟩ := Outcome.bind_eq_ok_iff.mp listed
    split at listed
    · obtain ⟨values, -, same⟩ := Outcome.bind_eq_ok_iff.mp listed
      obtain rfl := Except.ok.inj same
      obtain ⟨value, -, isItem⟩ := List.mem_filterMap.mp member
      split at isItem <;> cases isItem
    · obtain rfl := Except.ok.inj listed
      cases member

/-- The items of a collection when only the names around a case are searched for records. -/
def itemsAround (settings : Settings) (data : CaseData) (surroundings : Members)
    (collection : Collection) : Outcome (List Item) :=
  collection.items settings { data with collections := [], fields := [] } surroundings

/-- Nothing is stored in no names. -/
theorem firstStored?_nil (keys : List Text) : firstStored? keys [] = none :=
  List.findSome?_eq_none_iff.mpr fun _ _ => rfl

theorem storedValue?_of_stored {stored : Value}
    (isStored : collection.storedValue? otherNames data [] = .ok (some stored)) (surroundings : Members) :
    collection.storedValue? otherNames data surroundings = .ok (some stored) := by
  obtain ⟨collections, readCollections, isStored⟩ := Outcome.bind_eq_ok_iff.mp isStored
  refine Outcome.bind_eq_ok_iff.mpr ⟨collections, readCollections, ?_⟩
  dsimp only at isStored ⊢
  split at isStored
  · exact isStored
  · obtain ⟨fields, readFields, isStored⟩ := Outcome.bind_eq_ok_iff.mp isStored
    refine Outcome.bind_eq_ok_iff.mpr ⟨fields, readFields, ?_⟩
    split at isStored
    · exact isStored
    · rw [List.map_nil, firstStored?_nil] at isStored
      cases isStored

theorem storedValue?_of_not_stored (notStored : collection.storedValue? otherNames data [] = .ok none)
    (surroundings : Members) :
    collection.storedValue? otherNames data surroundings =
      collection.storedValue? otherNames { data with collections := [], fields := [] } surroundings := by
  obtain ⟨collections, readCollections, notStored⟩ := Outcome.bind_eq_ok_iff.mp notStored
  dsimp only at notStored
  split at notStored
  · cases notStored
  · rename_i noCollection
    obtain ⟨fields, readFields, notStored⟩ := Outcome.bind_eq_ok_iff.mp notStored
    split at notStored
    · cases notStored
    · rename_i noField
      have noNames : lowerNames [] = .ok [] := rfl
      simp only [storedValue?, readCollections, readFields, Outcome.ok_bind, noCollection, noField,
        noNames, firstStored?_nil]

variable (ofRecords : collection.source = .records fields otherNames)

include ofRecords

theorem items_of_stored {stored : Value}
    (isStored : collection.storedValue? otherNames data [] = .ok (some stored)) (surroundings : Members) :
    collection.items settings data surroundings = collection.items settings data [] := by
  simp only [items, ofRecords, storedValue?_of_stored isStored surroundings, isStored]

theorem items_of_not_stored (notStored : collection.storedValue? otherNames data [] = .ok none)
    (surroundings : Members) :
    collection.items settings data [] = .ok [] ∧
      collection.items settings data surroundings = collection.itemsAround settings data surroundings := by
  constructor
  · simp only [items, ofRecords, notStored]
    rfl
  · simp only [itemsAround, items, ofRecords, storedValue?_of_not_stored notStored surroundings]

/-- A collection whose items can be listed is stored with the case or not. -/
theorem exists_storedValue? {stored : List Item} (listed : collection.items settings data [] = .ok stored) :
    ∃ value, collection.storedValue? otherNames data [] = .ok value := by
  simp only [items, ofRecords] at listed
  obtain ⟨value, found, -⟩ := Outcome.bind_eq_ok_iff.mp listed
  exact ⟨value, found⟩

/-- The items that a search around the case finds are as many as those stored with it, if and only if
something is stored or nothing is found around the case. -/
theorem exists_items_length_eq_iff {stored : List Item}
    (listed : collection.items settings data [] = .ok stored) (surroundings : Members) :
    (∃ items, collection.items settings data surroundings = .ok items ∧ items.length = stored.length) ↔
      (∃ value, collection.storedValue? otherNames data [] = .ok (some value)) ∨
        collection.itemsAround settings data surroundings = .ok [] := by
  obtain ⟨found, isFound⟩ := exists_storedValue? ofRecords listed
  cases found with
  | some value =>
      rw [items_of_stored ofRecords isFound surroundings]
      exact ⟨fun _ => .inl ⟨value, isFound⟩, fun _ => ⟨stored, listed, rfl⟩⟩
  | none =>
      obtain ⟨noItems, around⟩ := items_of_not_stored ofRecords isFound surroundings
      obtain rfl := Except.ok.inj (noItems.symm.trans listed)
      rw [around, isFound]
      constructor
      · rintro ⟨items, isAround, length⟩
        rw [isAround, List.eq_nil_of_length_eq_zero length]
        exact .inr rfl
      · rintro (⟨value, isStored⟩ | isAround)
        · cases isStored
        · exact ⟨[], isAround, rfl⟩

end Collection

/-! ### Variables -/

namespace Collection

variable {settings : Settings} {data : CaseData} {stem : Text} {record values : Members}
  {pair : Text × Value}

theorem mem_addMembers (isPair : pair ∈ addMembers stem record values) :
    pair ∈ values ∨ ∃ key stored, (key, stored) ∈ record ∧
      pair = (stem ++ Naming.variableSuffix key, .text (if stored.isNull then [] else stored.plain)) := by
  rw [addMembers] at isPair
  induction record generalizing values with
  | nil => exact .inl isPair
  | cons member record ih =>
      obtain ⟨key, stored⟩ := member
      rcases ih isPair with given | ⟨other, content, isMember, same⟩
      · dsimp only at given
        split at given
        · exact .inl given
        · rcases List.mem_append.mp given with earlier | isLast
          · exact .inl earlier
          · exact .inr ⟨key, stored, List.mem_cons_self, List.mem_singleton.mp isLast⟩
      · exact .inr ⟨other, content, List.mem_cons_of_mem _ isMember, same⟩

/-- A variable of a record is a field in its wording, or a member as it is. -/
theorem mem_recordValues {fields : List ItemField}
    (written : recordValues settings stem data fields record = .ok values) (isPair : pair ∈ values) :
    (∃ field ∈ fields, ∃ wording, fieldValue settings data record field = .ok wording ∧
      pair = (stem ++ field.name, .text wording)) ∨
    ∃ key stored, (key, stored) ∈ record ∧
      pair = (stem ++ Naming.variableSuffix key, .text (if stored.isNull then [] else stored.plain)) := by
  obtain ⟨worded, read, same⟩ := Outcome.bind_eq_ok_iff.mp written
  obtain rfl := Except.ok.inj same
  refine (mem_addMembers isPair).imp_left fun isField => ?_
  obtain ⟨field, isMember, own⟩ := Outcome.exists_of_mem_mapM read (Members.mem_of_mem_ofPairs isField)
  obtain ⟨wording, isWording, isText⟩ := Outcome.bind_eq_ok_iff.mp own
  exact ⟨field, isMember, wording, isWording, (Except.ok.inj isText).symm⟩

end Collection

namespace Loop

/-- What a body becomes for one item of a collection. -/
def renderFor (source : Source) (collection : Collection) (body : Text) (item : Item) : Outcome Text := do
  renderItem (← collection.itemValues source.settings source.data item) body

/-- A block of a name goes through items of a collection: a body with variables of the items is
written once for every item, in order, and any other body once if there are items. -/
structure GoesThrough (source : Source) (name : Text) (collection : Collection) (items : List Item) :
    Prop where
  repeated : ∀ body text, usesStem collection.stem body = true →
    (render source name body = .ok text ↔ ∃ texts, text = texts.flatten ∧
      List.Forall₂ (fun item own => renderFor source collection body item = .ok own) items texts)
  guarded : ∀ body, usesStem collection.stem body = false →
    render source name body = .ok (if items.isEmpty then [] else Text.trim body)

/-- A loop goes through the items that are found for its collection. -/
theorem goesThrough_of_listed {source : Source} {collection : Collection} {name : Text}
    {items : List Item} (found : source.registry.find? name = some collection)
    (listed : collection.items source.settings source.data source.surroundings = .ok items) :
    GoesThrough source name collection items where
  repeated body text uses := by
    simp only [render, found, listed, Outcome.ok_bind, uses, if_true]
    cases items with
    | nil =>
        simp only [List.isEmpty_nil, if_true, List.forall₂_nil_left_iff, exists_eq_right]
        exact ⟨fun same => (Except.ok.inj same).symm, fun same => congrArg Except.ok same.symm⟩
    | cons item items =>
        rw [List.isEmpty_cons, if_neg Bool.false_ne_true, Outcome.bind_eq_ok_iff]
        refine exists_congr fun texts => ?_
        rw [Outcome.mapM_eq_ok_iff, and_comm]
        exact and_congr_left fun _ =>
          ⟨fun same => (Except.ok.inj same).symm, fun same => congrArg Except.ok same.symm⟩
  guarded body uses := by
    simp only [render, found, listed, Outcome.ok_bind, uses, Bool.false_eq_true, if_false]
    cases items <;> rfl

end Loop

end Covenant
